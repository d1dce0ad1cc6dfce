import MockAgents.ForStd.Trace
import MockAgents.Spec.RecordReplay

/-!
# Replayed streams

Each read of an upstream stream becomes a string of its own in the cassette. A string that
is not valid UTF-8 is stored with U+FFFD for each bad byte, so a stream comes back byte for
byte iff each read is valid UTF-8 by itself. A character that is split over two reads is
lost, though the stream as a whole is valid.
-/

namespace MockAgents

open Bytes (isUtf8 ofString toValid)
open Cassette (load prepare)

/-! ## The bytes of the chunks -/

theorem length_le_length_toValid (s : Bytes) : s.length ≤ (toValid s).length := by
  have := Bytes.length_toValid s
  omega

theorem length_flatten_le_toValid (l : List Bytes) :
    l.flatten.length ≤ (l.map toValid).flatten.length := by
  induction l with
  | nil => simp
  | cons s l ih =>
    have := length_le_length_toValid s
    simp only [List.map_cons, List.flatten_cons, List.length_append]
    omega

/-- Replacing bad bytes makes a string longer, so nothing cancels out over the pieces. -/
theorem flatten_toValid_iff (l : List Bytes) :
    (l.map toValid).flatten = l.flatten ↔ ∀ s ∈ l, isUtf8 s = true := by
  induction l with
  | nil => simp
  | cons s l ih =>
    simp only [List.map_cons, List.flatten_cons, List.forall_mem_cons, ← ih,
      ← Bytes.toValid_eq_self_iff s]
    constructor
    · intro h
      have hlen := congrArg List.length h
      have hs := length_le_length_toValid s
      have hl := length_flatten_le_toValid l
      simp only [List.length_append] at hlen
      exact List.append_inj h (by omega)
    · rintro ⟨hs, hl⟩
      rw [hs, hl]

variable {cs : List Chunk}

theorem flatten_streamEvents (h : ∀ c ∈ cs, c.accepted = true) :
    ((Proxy.streamEvents cs).map StreamEvent.data).flatten = Proxy.forwarded cs := by
  induction cs with
  | nil => rfl
  | cons c cs ih =>
    have htail := ih fun x hx => h x (by simp [hx])
    unfold Proxy.streamEvents Proxy.forwarded
    split
    · exact htail
    · simp [h c (by simp), htail]

theorem forall_streamEvents (h : ∀ c ∈ cs, c.accepted = true) :
    (∀ s ∈ (Proxy.streamEvents cs).map StreamEvent.data, isUtf8 s = true) ↔
      ∀ c ∈ cs, isUtf8 c.data = true := by
  induction cs with
  | nil => simp [Proxy.streamEvents]
  | cons c cs ih =>
    have htail := ih fun x hx => h x (by simp [hx])
    unfold Proxy.streamEvents
    split
    · -- an empty read leaves no event, and is valid
      rename_i hnil
      have hempty : isUtf8 [] = true := rfl
      simp only [htail, List.forall_mem_cons, hnil, hempty, true_and]
    · simp only [h c (by simp), if_true, List.map_cons, List.forall_mem_cons, htail]

/-! ## The recorded interaction -/

def Exchange.streamed (e : Exchange) (sha256 : Bytes → Bytes) : Interaction :=
  { Proxy.interaction sha256 e.request e.upstream with
    streaming := true, streamEvents := Proxy.streamEvents e.upstream.chunks }

/-- A stream that the client takes to its end and that is recorded. A redactor, if there is
    one, finds nothing to mask. -/
structure Exchange.Streamed (e : Exchange) (p : Proxy) (sha256 : Bytes → Bytes) : Prop where
  isSSE : isSSE (e.upstream.header.get (ofString "Content-Type")) = true
  notSkipped : (p.skipRecording e.upstream.status ||
    p.skipRecordOnError && Proxy.upstreamErrored e.upstream) = false
  client : ∀ c ∈ e.upstream.chunks, c.accepted = true
  unmasked : ∀ r, p.redactor = some r → r.apply (e.streamed sha256) = e.streamed sha256

/-- What the proxy does with a stream. -/
def Exchange.served (e : Exchange) (p : Proxy) (sha256 : Bytes → Bytes) (tape : Tape) :
    Tape × ProxyReply :=
  p.serveHTTP sha256 e.env tape e.request (some e.upstream)

variable {sha256 : Bytes → Bytes}

theorem Exchange.Streamed.served_eq {e : Exchange} {p : Proxy} (h : e.Streamed p sha256)
    (tape : Tape) :
    e.served p sha256 tape =
      let (c, file, ok) :=
        tape.cassette.append sha256 e.env.now e.env.fsOk tape.file (e.streamed sha256)
      (⟨c, file⟩, ⟨e.upstream.status, Proxy.forwarded e.upstream.chunks, !ok⟩) := by
  simp only [Exchange.served, Proxy.serveHTTP, h.isSSE, if_true, Proxy.serveStreaming,
    h.notSkipped, Proxy.record, Bool.false_eq_true, if_false]
  split
  · rename_i r hr
    have := h.unmasked r hr
    rw [Exchange.streamed] at this
    rw [this]
    rfl
  · rfl

variable {it : Interaction}

theorem load_append {c c' : Cassette} (hpath : c.path ≠ []) {now : Time} {fsOk : Bool}
    {file : Option Bytes} (hsaved : (c.append sha256 now fsOk file it).2.2 = true)
    (hload : load c.path (c.append sha256 now fsOk file it).2.1 = some c') :
    c' = ((c.interactions ++ [prepare sha256 now it]).map Interaction.stored).foldl
      Cassette.add (.new c.path) := by
  have hflush : (c.append sha256 now fsOk file it).2 = Cassette.flush fsOk c.path file
      (c.interactions ++ [prepare sha256 now it]) := rfl
  rw [hflush, Cassette.flush, if_neg hpath] at hsaved hload
  split at hsaved
  · rename_i content hwrite
    rw [hwrite] at hload
    by_cases hlines : ∀ x ∈ c.interactions ++ [prepare sha256 now it], x.Loadable
    · rw [(load_writeCassette hwrite _).1 hlines] at hload
      exact (Option.some.inj hload).symm
    · rw [(load_writeCassette hwrite _).2 hlines] at hload
      cases hload
  · cases hsaved

namespace Exchange.Streamed

variable {e : Exchange} {p : Proxy} {sha256 : Bytes → Bytes} {tape : Tape} {c : Cassette}

section

variable (h : e.Streamed p sha256) (hpath : tape.cassette.path ≠ [])
  (hsaved : (e.served p sha256 tape).2.recordError = false)
  (hload : load tape.cassette.path (e.served p sha256 tape).1.file = some c)

include h hpath hsaved hload

theorem loaded_eq :
    c = ((tape.cassette.interactions ++
      [prepare sha256 e.env.now (e.streamed sha256)]).map Interaction.stored).foldl
        Cassette.add (.new tape.cassette.path) := by
  rw [h.served_eq] at hsaved hload
  have hok : (tape.cassette.append sha256 e.env.now e.env.fsOk tape.file
      (e.streamed sha256)).2.2 = true := by
    simpa using hsaved
  exact load_append hpath hok hload

/-- The interaction that is loaded again holds the stored form of each read. -/
theorem getLast?_loaded :
    c.interactions.getLast? =
      some (prepare sha256 e.env.now (e.streamed sha256)).stored := by
  rw [h.loaded_eq hpath hsaved hload, Cassette.interactions_foldl_add, List.map_append]
  exact List.getLast?_concat

theorem find_loaded (hempty : tape.cassette.interactions = []) :
    ((Replay.new none).find sha256 c e.request).2 = c.interactions.getLast? := by
  have hseq : c.lookupSequence (hashRequest sha256 e.request.method e.request.path
      e.request.body) =
        [] ++ [(prepare sha256 e.env.now (e.streamed sha256)).stored] := by
    rw [h.loaded_eq hpath hsaved hload, hempty, Cassette.lookupSequence_foldl_add]
    exact List.filter_cons_of_pos (decide_eq_true (e.stored_hash sha256))
  rw [h.getLast?_loaded hpath hsaved hload, Replay.find_of_no_matcher rfl,
    Replay.next_eq hseq rfl]

end

end Exchange.Streamed

/-! ## What is replayed -/

def Replayed.Streams (bytes : Bytes) : Replayed → Prop
  | .streaming _ _ chunks => chunks.flatten = bytes
  | .hit .. => False
  | .miss => False

instance (bytes : Bytes) (reply : Replayed) : Decidable (reply.Streams bytes) :=
  match reply with
  | .streaming _ _ chunks => inferInstanceAs (Decidable (chunks.flatten = bytes))
  | .hit .. => inferInstanceAs (Decidable False)
  | .miss => inferInstanceAs (Decidable False)

/-- A stored stream is served with U+FFFD for the bad bytes of each read. -/
theorem streams_stored_iff (h : it.streaming = true) (bytes : Bytes) :
    (Replay.replyOf it.stored).Streams bytes ↔
      ((it.streamEvents.map StreamEvent.data).map toValid).flatten = bytes := by
  have hstreaming : it.stored.streaming = true := h
  have hevents : it.stored.streamEvents.map StreamEvent.data =
      (it.streamEvents.map StreamEvent.data).map toValid := by
    simp [Interaction.stored, StreamEvent.stored]
  rw [Replay.replyOf, if_pos hstreaming, Replayed.Streams, Replay.writtenChunks, hevents,
    List.take_of_length_le (by simp [Interaction.stored])]

/-- A stream was recorded, the cassette was saved and loaded, and a `Replay` answers with
    the recorded interaction: it writes the bytes that the proxy forwarded iff each read of
    the upstream body was valid UTF-8. -/
theorem stream_replayed_iff {e : Exchange} {p : Proxy} {sha256 : Bytes → Bytes}
    (h : e.Streamed p sha256) {tape : Tape} (hpath : tape.cassette.path ≠ [])
    (hsaved : (e.served p sha256 tape).2.recordError = false) {c : Cassette}
    (hload : load tape.cassette.path (e.served p sha256 tape).1.file = some c)
    {rp : Replay} {r : Request} (hfound : (rp.find sha256 c r).2 = c.interactions.getLast?) :
    (rp.serveHTTP sha256 c r).2.Streams (e.served p sha256 tape).2.body ↔
      ∀ chunk ∈ e.upstream.chunks, isUtf8 chunk.data = true := by
  rw [h.getLast?_loaded hpath hsaved hload] at hfound
  have hreply : (rp.serveHTTP sha256 c r).2 =
      Replay.replyOf (prepare sha256 e.env.now (e.streamed sha256)).stored := by
    unfold Replay.serveHTTP
    split
    · rename_i heq
      rw [heq] at hfound
      cases hfound
    · rename_i heq
      rw [heq] at hfound
      rw [Option.some.inj hfound]
  have hbody : (e.served p sha256 tape).2.body = Proxy.forwarded e.upstream.chunks := by
    rw [h.served_eq]
  rw [hreply, hbody, streams_stored_iff rfl, ← flatten_streamEvents h.client,
    ← forall_streamEvents h.client]
  exact flatten_toValid_iff _

def sseHeader : Header :=
  AList.insert (ofString "Content-Type") [ofString "text/event-stream"] ∅

def streamOf (reads : List Bytes) : Exchange where
  request := ⟨ofString "POST", ofString "/v1/chat/completions", ∅, []⟩
  upstream := ⟨200, sseHeader, reads.map fun data => ⟨data, 0, true⟩, true,
    statusValid_ok⟩
  env := ⟨newYear, true⟩

/-- A tape without interactions and without a file. -/
def blankTape : Tape := ⟨.new tapePath, none⟩

theorem streamed_streamOf (reads : List Bytes) : (streamOf reads).Streamed plainProxy zeroHash where
  isSSE := by
    have hheader : isSSE (sseHeader.get (ofString "Content-Type")) = true := by
      decide
    exact hheader
  notSkipped := rfl
  client := by simp [streamOf]
  unmasked := nofun

/-- An event with the two bytes of U+00E9 in one read. -/
def wholeStream : Exchange := streamOf [[100, 97, 116, 97, 58, 32, 195, 169, 10, 10]]

theorem wholeStream_replayed :
    ∃ c, load tapePath (wholeStream.served plainProxy zeroHash blankTape).1.file =
        some c ∧
      ((Replay.new none).serveHTTP zeroHash c wholeStream.request).2.Streams
        (wholeStream.served plainProxy zeroHash blankTape).2.body := by
  have hstream : wholeStream.Streamed plainProxy zeroHash := streamed_streamOf _
  have hpath : blankTape.cassette.path ≠ [] := by decide
  have hsaved : (wholeStream.served plainProxy zeroHash blankTape).2.recordError = false := by
    decide +kernel
  have hload : (load tapePath
      (wholeStream.served plainProxy zeroHash blankTape).1.file).isSome = true := by
    decide +kernel
  obtain ⟨c, hc⟩ := Option.isSome_iff_exists.mp hload
  refine ⟨c, hc, ?_⟩
  rw [stream_replayed_iff hstream hpath hsaved hc (hstream.find_loaded hpath hsaved hc rfl)]
  decide

/-- The same event, with a read that ends between the two bytes. -/
def splitStream : Exchange := streamOf [[100, 97, 116, 97, 58, 32, 195], [169, 10, 10]]

/-- The stream is valid and no read is too long, but what is replayed has U+FFFD twice. -/
theorem splitStream_not_replayed :
    isUtf8 splitStream.upstream.body = true ∧
      (∀ chunk ∈ splitStream.upstream.chunks, chunk.data.length ≤ 4096) ∧
      (splitStream.served plainProxy zeroHash blankTape).2.recordError = false ∧
      ∃ c, load tapePath (splitStream.served plainProxy zeroHash blankTape).1.file =
          some c ∧
        ((Replay.new none).serveHTTP zeroHash c splitStream.request).2.Streams
          [100, 97, 116, 97, 58, 32, 239, 191, 189, 239, 191, 189, 10, 10] ∧
        ¬ ((Replay.new none).serveHTTP zeroHash c splitStream.request).2.Streams
          (splitStream.served plainProxy zeroHash blankTape).2.body := by
  refine ⟨by decide, by decide, by decide, ?_⟩
  decide +kernel

end MockAgents
