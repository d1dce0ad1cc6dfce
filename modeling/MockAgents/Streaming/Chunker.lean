import MockAgents.ForStd.Fields

/-!
# Chunks of a response

`Chunker` splits the text of a response into pieces of some words each. `Pacer` is the part
of the stream pacing that decides which frames are written: the chunk before which the
stream is cut off, and whether it ends in a malformed frame. The delays between the frames
are not modelled.
-/

namespace MockAgents

def defaultChunkSize : Nat := 4

/-- A `Chunker`. `NewChunker` sees to it that the chunk size is positive. -/
structure Chunker where
  chunkSize : Nat
  pos : 0 < chunkSize

namespace Chunker

def newChunker (chunkSize : Int) : Chunker :=
  if h : chunkSize ≤ 0 then ⟨defaultChunkSize, by decide⟩ else ⟨chunkSize.toNat, by omega⟩

/-- The loop of `Chunk` over the words that are left. -/
def chunkWords (c : Chunker) : (fuel : Nat) → List Bytes → List Bytes
  | 0, _ => []
  | _ + 1, [] => []
  | fuel + 1, words =>
    let rest := words.drop c.chunkSize
    (Bytes.join [32] (words.take c.chunkSize) ++ if rest = [] then [] else [32]) ::
      c.chunkWords fuel rest

def chunk (c : Chunker) (content : Bytes) : List Bytes :=
  if content = [] then []
  else
    let words := Bytes.fields content
    if words = [] then [content] else c.chunkWords words.length words

end Chunker

/-- The loop of `chunkString` over the bytes that are left. -/
def chunkBytes (size : Nat) : (fuel : Nat) → Bytes → List Bytes
  | 0, _ => []
  | _ + 1, [] => []
  | fuel + 1, s => s.take size :: chunkBytes size fuel (s.drop size)

/-- `chunkString`, and `chunkArguments`, which is the same. -/
def chunkString (s : Bytes) (size : Nat) : List Bytes :=
  if size = 0 ∨ s = [] then [s] else chunkBytes size s.length s

/-! ## Pacing -/

/-- A `StreamingConfig` without the delays between the frames. -/
structure StreamingConfig where
  enabled : Bool := false
  chunkSize : Int := 0
  truncateAfterChunks : Int := 0
  malformed : Bool := false

def streamChunkSize (cfg : Option StreamingConfig) : Int :=
  match cfg with
  | some cfg => if 0 < cfg.chunkSize then cfg.chunkSize else defaultChunkSize
  | none => defaultChunkSize

structure Pacer where
  truncateAfter : Int
  malformed : Bool

namespace Pacer

def newPacer (cfg : Option StreamingConfig) : Pacer :=
  match cfg with
  | some cfg => ⟨cfg.truncateAfterChunks, cfg.malformed⟩
  | none => ⟨0, false⟩

/-- `beforeChunk`: the stream is truncated here. -/
def beforeChunk (p : Pacer) (i : Nat) : Bool := decide (0 < p.truncateAfter ∧ p.truncateAfter ≤ i)

variable {F : Type}

/-- The loop over the content chunks: the frames, and whether the stream is truncated. -/
def emitChunks (p : Pacer) (frame : Bytes → F) : (i : Nat) → List Bytes → List F × Bool
  | _, [] => ([], false)
  | i, c :: cs =>
    if p.beforeChunk i then ([], true)
    else
      let (frames, truncated) := p.emitChunks frame (i + 1) cs
      (frame c :: frames, truncated)

def writeStop (p : Pacer) (malformed : F) : List F := if p.malformed then [malformed] else []

end Pacer

end MockAgents
