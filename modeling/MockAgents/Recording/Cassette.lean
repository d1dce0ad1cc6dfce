import MockAgents.ForStd.GoMap
import MockAgents.Recording.Interaction

/-!
# Cassettes

A `Cassette` holds interactions in the order they were appended, and an index from the
request hash to the interactions that have it. Its file holds one interaction a line, and
every append writes the whole file anew.

`sha256` is a parameter: it is any function from byte strings to byte strings. The state of
the disk is the content of the cassette's file, `none` if there is no such file.
-/

namespace MockAgents

/-! ## Request hashes -/

/-- The body as `HashRequest` hashes it: re-encoded with its keys in order if it is JSON. -/
def canonicalBody (body : Bytes) : Bytes :=
  match Json.unmarshal body with
  | some v => Json.encode true v
  | none => body

def hashRequest (sha256 : Bytes → Bytes) (method path body : Bytes) : Bytes :=
  Bytes.hexEncode (sha256 (method ++ 10 :: path ++ 10 :: canonicalBody body))

/-! ## The cassette file -/

/-- `MaxCassetteLine`, 32 MiB. -/
def maxCassetteLine : Nat := 32 * 2 ^ 20

/-- `writeCassette`: the content of the file it renames into place. It fails if an
    interaction cannot be encoded or the file system reports an error. -/
def writeCassette (fsOk : Bool) (interactions : List Interaction) : Option Bytes :=
  if fsOk then (interactions.mapM Interaction.encode).map List.flatten else none

/-- `bufio.ScanLines`: the lines of a text. The newline that ends the last one is optional. -/
def scanLines : Bytes → List Bytes
  | [] => []
  | b :: s =>
    if b = 10 then [] :: scanLines s
    else
      match scanLines s with
      | [] => [[b]]
      | l :: ls => (b :: l) :: ls

theorem scanLines_cons {l : Bytes} (h : 10 ∉ l) (rest : Bytes) :
    scanLines (l ++ 10 :: rest) = l :: scanLines rest := by
  induction l with
  | nil => simp [scanLines]
  | cons b l ih =>
    simp only [List.mem_cons, not_or] at h
    rw [List.cons_append, scanLines, if_neg fun hb => h.1 hb.symm, ih h.2]

/-- The lines that were written are read. -/
theorem scanLines_flatMap {ls : List Bytes} (h : ∀ l ∈ ls, 10 ∉ l) :
    scanLines (ls.flatMap (· ++ [10])) = ls := by
  induction ls with
  | nil => rfl
  | cons l ls ih =>
    obtain ⟨hl, hls⟩ := List.forall_mem_cons.mp h
    rw [List.flatMap_cons, List.append_assoc, List.singleton_append, scanLines_cons hl, ih hls]

/-- The interactions in the lines of a file. A line that does not fit the scanner's buffer
    with its newline is an error, and blank lines are skipped. -/
def loadLines : List Bytes → Option (List Interaction)
  | [] => some []
  | l :: ls =>
    if maxCassetteLine ≤ l.length then none
    else if Bytes.trimSpace l = [] then loadLines ls
    else
      match Interaction.unmarshal (Bytes.trimSpace l), loadLines ls with
      | some it, some its => some (it :: its)
      | _, _ => none

/-! ## The cassette -/

structure Cassette where
  path : Bytes
  interactions : List Interaction
  byHash : GoMap Bytes (List Interaction)

namespace Cassette

def new (path : Bytes) : Cassette := ⟨path, [], ∅⟩

def add (c : Cassette) (it : Interaction) : Cassette where
  path := c.path
  interactions := c.interactions ++ [it]
  byHash := c.byHash.insert it.hash ((c.byHash.lookup it.hash).getD [] ++ [it])

/-- `Load`. A missing file gives an empty cassette. -/
def load (path : Bytes) (file : Option Bytes) : Option Cassette :=
  match file with
  | none => some (new path)
  | some content => (loadLines (scanLines content)).map fun its => its.foldl add (new path)

def len (c : Cassette) : Nat := c.interactions.length

def lookupSequence (c : Cassette) (hash : Bytes) : List Interaction :=
  (c.byHash.lookup hash).getD []

/-- The hash and the time that `Append` and `AppendAll` give an interaction without them. -/
def prepare (sha256 : Bytes → Bytes) (now : Time) (it : Interaction) : Interaction :=
  { it with
    hash := if it.hash = [] then hashRequest sha256 it.method it.path it.requestBody else it.hash
    recordedAt := if it.recordedAt.isZero then now else it.recordedAt }

/-- The part of `AppendAll` under the lock. `Append` is the same for one interaction. -/
def addAll (c : Cassette) (sha256 : Bytes → Bytes) (now : Time) (its : List Interaction) :
    Cassette :=
  (its.map (prepare sha256 now)).foldl add c

/-- What follows the lock: without a path there is no file, and otherwise the snapshot of
    the interactions is written. The file, and whether the call returned nil. -/
def flush (fsOk : Bool) (path : Bytes) (file : Option Bytes) (snapshot : List Interaction) :
    Option Bytes × Bool :=
  if path = [] then (file, true)
  else
    match writeCassette fsOk snapshot with
    | some content => (some content, true)
    | none => (file, false)

/-- `AppendAll`, with no other call in between. -/
def appendAll (c : Cassette) (sha256 : Bytes → Bytes) (now : Time) (fsOk : Bool)
    (file : Option Bytes) (its : List Interaction) : Cassette × Option Bytes × Bool :=
  let c' := c.addAll sha256 now its
  (c', flush fsOk c'.path file c'.interactions)

def append (c : Cassette) (sha256 : Bytes → Bytes) (now : Time) (fsOk : Bool)
    (file : Option Bytes) (it : Interaction) : Cassette × Option Bytes × Bool :=
  c.appendAll sha256 now fsOk file [it]

/-! ## The index -/

variable (c : Cassette) (its : List Interaction)

theorem interactions_foldl_add : (its.foldl add c).interactions = c.interactions ++ its := by
  induction its generalizing c with
  | nil => simp
  | cons it its ih =>
    rw [List.foldl_cons, ih]
    simp [add]

theorem path_foldl_add : (its.foldl add c).path = c.path := by
  induction its generalizing c with
  | nil => rfl
  | cons it its ih =>
    rw [List.foldl_cons, ih]
    rfl

theorem interactions_addAll (sha256 : Bytes → Bytes) (now : Time) (its : List Interaction) :
    (c.addAll sha256 now its).interactions = c.interactions ++ its.map (prepare sha256 now) :=
  interactions_foldl_add _ _

theorem path_addAll (sha256 : Bytes → Bytes) (now : Time) (its : List Interaction) :
    (c.addAll sha256 now its).path = c.path :=
  path_foldl_add _ _

theorem byHash_foldl_add :
    (its.foldl add c).byHash =
      its.foldl (fun m it => m.insert it.hash ((m.lookup it.hash).getD [] ++ [it])) c.byHash := by
  induction its generalizing c with
  | nil => rfl
  | cons it its ih =>
    rw [List.foldl_cons, ih]
    rfl

/-- The index holds the interactions of each hash in the order of the list. -/
theorem lookupSequence_foldl_add (path : Bytes) (its : List Interaction) (hash : Bytes) :
    (its.foldl add (new path)).lookupSequence hash = its.filter fun it => it.hash = hash := by
  rw [lookupSequence, byHash_foldl_add, GoMap.lookup_foldl_group]
  rfl

end Cassette

end MockAgents
