import MockAgents.Types.Agent

/-!
# Conversation sessions

The session of `internal/engine/state`: message history, turn count, variables and
the access time that expiry is measured from. Clock readings are arguments, in
nanoseconds.
-/

namespace MockAgents

/-- Who wrote a message of the history. -/
inductive Role where
  | user
  | assistant
  deriving DecidableEq

structure ToolCallMsg where
  name : String
  arguments : Fields := []

structure Message where
  role : Role
  content : String
  toolCalls : List ToolCallMsg := []
  timestamp : Int

/-- The conversation state of one client session. -/
structure Session where
  id : String := ""
  agentName : String := ""
  messages : List Message := []
  turnCount : Nat := 0
  vars : Fields := []
  createdAt : Int := 0
  lastAccess : Int := 0
  ttl : Int := 0
  deriving Inhabited

/-- The assistant turn that a `build` callback returns. -/
structure Reply where
  content : String
  toolCalls : List ToolCallMsg := []

/-- Everything a `build` callback leaves behind: the returned reply or error, the
    session variables after it, and what it wrote to the variables it captures. -/
structure Built (ε α : Type) where
  outcome : Except ε Reply
  vars : Fields
  captured : α

namespace Session

def newSession (id agentName : String) (ttl now : Int) : Session where
  id := id
  agentName := agentName
  createdAt := now
  lastAccess := now
  ttl := ttl

/-- `appendUserMessage`: one clock reading for the message and the access time. -/
def appendUserMessage (s : Session) (content : String) (now : Int) : Session :=
  { s with
    messages := s.messages ++ [{ role := .user, content := content, timestamp := now }]
    turnCount := s.turnCount + 1
    lastAccess := now }

def appendAssistantMessage (s : Session) (content : String) (toolCalls : List ToolCallMsg)
    (now : Int) : Session :=
  { s with
    messages := s.messages ++
      [{ role := .assistant, content := content, toolCalls := toolCalls, timestamp := now }]
    lastAccess := now }

/-- `IsExpired`; a TTL that is not positive never expires. -/
def isExpired (s : Session) (now : Int) : Bool :=
  if s.ttl ≤ 0 then false else decide (now - s.lastAccess > s.ttl)

/-- `ApplyTurn` as one critical section: the user message at `userAt`, then `build` on
    the new turn number and the variables, then, if it succeeds, its reply at
    `replyAt`. -/
def applyTurn {ε α : Type} (s : Session) (userContent : String) (userAt replyAt : Int)
    (build : Nat → Fields → Built ε α) : Session × Except ε Unit × α :=
  let s := s.appendUserMessage userContent userAt
  let b := build s.turnCount s.vars
  let s := { s with vars := b.vars }
  match b.outcome with
  | .error err => (s, .error err, b.captured)
  | .ok reply =>
    (s.appendAssistantMessage reply.content reply.toolCalls replyAt, .ok (), b.captured)

end Session

end MockAgents
