import MockAgents.Types.Agent

/-!
# Pipeline definitions

The document types of `internal/types/pipeline.go`.
-/

namespace MockAgents

def agentAPIVersion : String := "mockagents/v1"

def pipelineKind : String := "Pipeline"

def topologySequential : String := "sequential"

def topologyParallel : String := "parallel"

def topologyGraph : String := "graph"

/-- A node of a pipeline: an id, and the name of the agent it runs. -/
structure PipelineAgent where
  id : String
  ref : String
  deriving DecidableEq

/-- A directed edge of a graph pipeline. A non-empty `whenContains` lets the edge
    fire only if the output of `src` contains it. -/
structure PipelineEdge where
  src : String
  dst : String
  whenContains : String := ""
  deriving DecidableEq

structure PipelineSpec where
  topology : String
  agents : List PipelineAgent
  edges : List PipelineEdge := []

/-- A multi-agent topology document. -/
structure PipelineDefinition where
  apiVersion : String := agentAPIVersion
  kind : String := pipelineKind
  metadata : Metadata
  spec : PipelineSpec

end MockAgents
