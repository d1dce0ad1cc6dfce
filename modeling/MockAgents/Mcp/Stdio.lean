import MockAgents.Mcp.Server
import MockAgents.Recording.Cassette

/-!
# The stdio transport

`ServeStdio` handles the lines of its input one after another and writes each reply on a line
of its own. Writing does not fail here. The carriage return that the scanner drops from the
end of a line is white space, which `TrimSpace` drops too.
-/

namespace MockAgents

open Bytes (trimSpace)

/-- The largest line with its newline, 10 MiB. -/
def maxFrame : Nat := 10 * 1024 * 1024

/-- Why `ServeStdio` ends before its input does. -/
inductive StdioError where
  /-- A response cannot be encoded. -/
  | handler
  /-- A line does not fit the scanner's buffer with its newline. -/
  | tooLong
  deriving DecidableEq

structure StdioResult where
  output : Bytes
  err : Option StdioError
  deriving DecidableEq

/-- The loop of `ServeStdio`. -/
def serveLines (lib : MCPLib) (s : MCPServer) : List Bytes → StdioResult
  | [] => ⟨[], none⟩
  | line :: lines =>
    if maxFrame ≤ line.length then ⟨[], some .tooLong⟩
    else if trimSpace line = [] then serveLines lib s lines
    else
      match s.handleBytes lib (trimSpace line) with
      | (.failed, _) => ⟨[], some .handler⟩
      | (.silent, s') => serveLines lib s' lines
      | (.reply out, s') =>
        let rest := serveLines lib s' lines
        { rest with output := out ++ 10 :: rest.output }

def serveStdio (lib : MCPLib) (s : MCPServer) (input : Bytes) : StdioResult :=
  serveLines lib s (scanLines input)

end MockAgents
