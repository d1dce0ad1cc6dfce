import MockAgents.ForStd.Bytes
import MockAgents.ForStd.Trace

/-!
# Captured bodies

The interaction log keeps the first mebibyte of a request and of its response. The response is
captured by `captureWriter`, which copies what is written before it passes it on, and the request
by `reqBodyCaptureReader`, which copies what was read. Both pass calls and results through, and
both keep the first mebibyte, however it is divided. They differ in one case: an empty `Write`
after exactly a mebibyte makes the writer report a truncated body.
-/

namespace MockAgents

def maxCaptureBodyBytes : Nat := 1048576

/-- `isEventStream`, where `parseMediaType` is the media type of `mime.ParseMediaType`. -/
def isEventStream (parseMediaType : Bytes → Option Bytes) (contentType : Bytes) : Bool :=
  if contentType = [] then false
  else
    match parseMediaType contentType with
    | some mediaType => mediaType = Bytes.ofString "text/event-stream"
    | none => (Bytes.ofString "text/event-stream").isPrefixOf contentType

/-- The `ResponseWriter` that is wrapped: its states, its header and its `Write`. -/
structure InnerWriter (σ ρ : Type) where
  parseMediaType : Bytes → Option Bytes
  contentType : σ → Bytes
  write : σ → Bytes → σ × ρ

/-- `captureWriter`, as `acquireCaptureWriter` returns it. -/
structure CaptureWriter (σ : Type) where
  inner : σ
  capture : Bool := true
  body : Bytes := []
  truncated : Bool := false
  streaming : Bool := false
  sniffed : Bool := false

namespace CaptureWriter

variable {σ ρ : Type}

def detectStreaming (lib : InnerWriter σ ρ) (w : CaptureWriter σ) : CaptureWriter σ :=
  if w.sniffed then w
  else if isEventStream lib.parseMediaType (lib.contentType w.inner) then
    { w with sniffed := true, streaming := true, capture := false }
  else { w with sniffed := true }

/-- The copy that `Write` makes, as the body and the flag `truncated`. -/
def record (body : Bytes) (truncated : Bool) (p : Bytes) : Bytes × Bool :=
  if truncated then (body, true)
  else
    let remaining := maxCaptureBodyBytes - body.length
    if remaining > 0 then
      if p.length > remaining then (body ++ p.take remaining, true) else (body ++ p, false)
    -- no room is left, and an empty `p` is reported as well
    else (body, true)

def write (lib : InnerWriter σ ρ) (w : CaptureWriter σ) (p : Bytes) : CaptureWriter σ × ρ :=
  let w := w.detectStreaming lib
  let copy := if w.capture then record w.body w.truncated p else (w.body, w.truncated)
  ({ w with inner := (lib.write w.inner p).1, body := copy.1, truncated := copy.2 },
    (lib.write w.inner p).2)

def bodyString (w : CaptureWriter σ) : Bytes :=
  if w.capture = false ∨ w.body = [] then [] else w.body

end CaptureWriter

/-- `reqBodyCaptureReader`. -/
structure ReqBodyCaptureReader (σ : Type) where
  rc : σ
  buf : Bytes := []
  truncated : Bool := false

namespace ReqBodyCaptureReader

/-- The copy that `Read` makes, as the buffer and the flag `truncated`. -/
def record (buf : Bytes) (truncated : Bool) (p : Bytes) : Bytes × Bool :=
  let room := maxCaptureBodyBytes - buf.length
  if p = [] then (buf, truncated)
  else if room = 0 then (buf, true)
  else if p.length ≤ room then (buf ++ p, truncated)
  else (buf ++ p.take room, true)

/-- `Read` into a slice of length `len`, where `inner` returns the bytes that were read and the
    error. -/
def read {σ ε : Type} (inner : σ → Nat → σ × Bytes × ε) (t : ReqBodyCaptureReader σ) (len : Nat) :
    ReqBodyCaptureReader σ × Bytes × ε :=
  let copy := record t.buf t.truncated (inner t.rc len).2.1
  (⟨(inner t.rc len).1, copy.1, copy.2⟩, (inner t.rc len).2)

end ReqBodyCaptureReader

/-! ## What is captured -/

/-- The first mebibyte of `bytes`, and whether there is more. -/
def IsCapture (copy : Bytes × Bool) (bytes : Bytes) : Prop :=
  copy.1 = bytes.take maxCaptureBodyBytes ∧
    (copy.2 = true ↔ maxCaptureBodyBytes < bytes.length)

/-- What is taken of `p` fills the room that is left. -/
theorem take_append_room {body bytes : Bytes} (h : body = bytes.take maxCaptureBodyBytes)
    (p : Bytes) : maxCaptureBodyBytes - body.length = maxCaptureBodyBytes - bytes.length ∧
      (bytes ++ p).take maxCaptureBodyBytes =
        body ++ p.take (maxCaptureBodyBytes - bytes.length) := by
  constructor
  · rw [h, List.length_take]
    omega
  · rw [List.take_append, h]

theorem IsCapture.record {copy : Bytes × Bool} {bytes : Bytes} (h : IsCapture copy bytes)
    (p : Bytes) : IsCapture (ReqBodyCaptureReader.record copy.1 copy.2 p) (bytes ++ p) := by
  obtain ⟨hbuf, htruncated⟩ := h
  obtain ⟨hroom, htake⟩ := take_append_room hbuf p
  rw [IsCapture, htake, List.length_append, ReqBodyCaptureReader.record, hroom]
  split
  · subst p
    simpa using htruncated
  · rename_i hne
    have hpos : 0 < p.length := List.length_pos_iff.mpr hne
    split
    · rename_i hfull
      simp only [hfull, List.take_zero, List.append_nil, true_and, true_iff]
      omega
    · split
      · rename_i hfits
        rw [htruncated, List.take_of_length_le hfits]
        exact ⟨rfl, by omega⟩
      · simp only [true_and, true_iff]
        omega

namespace CaptureWriter

/-- The writer's copy, after the last write `last`. -/
def Copied (copy : Bytes × Bool) (bytes : Bytes) (last : Option Bytes) : Prop :=
  copy.1 = bytes.take maxCaptureBodyBytes ∧ (copy.2 = true ↔ maxCaptureBodyBytes < bytes.length ∨
    (bytes.length = maxCaptureBodyBytes ∧ last = some []))

theorem Copied.record {copy : Bytes × Bool} {bytes : Bytes} {last : Option Bytes}
    (h : Copied copy bytes last) (p : Bytes) :
    Copied (record copy.1 copy.2 p) (bytes ++ p) (some p) := by
  obtain ⟨hbody, htruncated⟩ := h
  obtain ⟨hroom, htake⟩ := take_append_room hbody p
  rw [Copied, htake, List.length_append, CaptureWriter.record, hroom, Option.some.injEq,
    ← List.length_eq_zero_iff]
  split
  · rename_i htrue
    have hfull : maxCaptureBodyBytes ≤ bytes.length := by
      rcases htruncated.mp htrue with hmore | ⟨hall, _⟩ <;> omega
    simp only [Nat.sub_eq_zero_of_le hfull, List.take_zero, List.append_nil, true_and, true_iff]
    omega
  · rename_i hfalse
    dsimp only
    split
    · split
      · simp only [true_and, true_iff]
        omega
      · rename_i hfits
        rw [List.take_of_length_le (by omega)]
        refine ⟨rfl, iff_of_false (by simp) ?_⟩
        omega
    · have hfull : maxCaptureBodyBytes - bytes.length = 0 := by omega
      simp only [hfull, List.take_zero, List.append_nil, true_and, true_iff]
      omega

variable {σ ρ : Type} {lib : InnerWriter σ ρ}

/-- The state after the writes `done` of a response that is no event stream. -/
structure Holds (lib : InnerWriter σ ρ) (w : CaptureWriter σ) (done : List Bytes) : Prop where
  capture : w.capture = true
  plain : w.sniffed = false → isEventStream lib.parseMediaType (lib.contentType w.inner) = false
  copied : Copied (w.body, w.truncated) done.flatten done.getLast?

theorem Holds.start {s : σ}
    (hplain : isEventStream lib.parseMediaType (lib.contentType s) = false) :
    Holds lib { inner := s } [] :=
  ⟨rfl, fun _ => hplain, rfl, by simp [maxCaptureBodyBytes]⟩

theorem Holds.write {w : CaptureWriter σ} {done : List Bytes} (h : w.Holds lib done) (p : Bytes) :
    (w.write lib p).1.Holds lib (done ++ [p]) := by
  -- the first write looks at the content type, and capturing goes on
  have hdetect : w.detectStreaming lib = { w with sniffed := true } := by
    rw [detectStreaming]
    split
    · rename_i hsniffed
      rw [← hsniffed]
    · rename_i hsniffed
      rw [h.plain (by simpa using hsniffed)]
      rfl
  have hcopied := h.copied.record p
  rw [CaptureWriter.write, hdetect]
  refine ⟨h.capture, nofun, ?_⟩
  simpa [h.capture] using hcopied

theorem Holds.run {w : CaptureWriter σ} {done : List Bytes} (h : w.Holds lib done)
    (writes : List Bytes) :
    (after (CaptureWriter.write lib) w writes).Holds lib (done ++ writes) := by
  induction writes generalizing w done with
  | nil => simpa [after] using h
  | cons p writes ih =>
    have hnext := ih (h.write p)
    rw [List.append_assoc] at hnext
    exact hnext

theorem inner_detectStreaming (w : CaptureWriter σ) : (w.detectStreaming lib).inner = w.inner := by
  rw [detectStreaming]
  split
  · rfl
  · split <;> rfl

end CaptureWriter

theorem isCapture_after {σ ε : Type} (inner : σ → Nat → σ × Bytes × ε)
    {t : ReqBodyCaptureReader σ} {bytes : Bytes} (h : IsCapture (t.buf, t.truncated) bytes)
    (lens : List Nat) :
    IsCapture ((after (ReqBodyCaptureReader.read inner) t lens).buf,
        (after (ReqBodyCaptureReader.read inner) t lens).truncated)
      (bytes ++ (trace inner t.rc lens).flatMap (·.2.1)) := by
  induction lens generalizing t bytes with
  | nil => simpa [after, trace] using h
  | cons len lens ih =>
    have hnext := ih (t := (t.read inner len).1) (h.record (inner t.rc len).2.1)
    rw [List.append_assoc] at hnext
    exact hnext

/-- The other side sees the same calls and results, and the copies are the first mebibyte of what
    was written and of what was read, with the flag for more. -/
structure ExactCapture {σ τ ρ ε : Type} (lib : InnerWriter σ ρ)
    (inner : τ → Nat → τ × Bytes × ε) (s : σ) (t : τ) (writes : List Bytes)
    (lens : List Nat) : Prop where
  writes_pass : ∀ (w : CaptureWriter σ) (p : Bytes),
    ((w.write lib p).1.inner, (w.write lib p).2) = lib.write w.inner p
  written : IsCapture ((after (CaptureWriter.write lib) { inner := s } writes).bodyString,
    (after (CaptureWriter.write lib) { inner := s } writes).truncated) writes.flatten
  reads_pass : ∀ (t : ReqBodyCaptureReader τ) (len : Nat),
    ((t.read inner len).1.rc, (t.read inner len).2) = inner t.rc len
  read : IsCapture ((after (ReqBodyCaptureReader.read inner) { rc := t } lens).buf,
      (after (ReqBodyCaptureReader.read inner) { rc := t } lens).truncated)
    ((trace inner t lens).flatMap (·.2.1))

/-- Capture is exact unless exactly a mebibyte was written and the last `Write` was empty. -/
theorem exactCapture_iff {σ τ ρ ε : Type} (lib : InnerWriter σ ρ)
    (inner : τ → Nat → τ × Bytes × ε) (s : σ) (t : τ) (writes : List Bytes) (lens : List Nat)
    (hplain : isEventStream lib.parseMediaType (lib.contentType s) = false) :
    ExactCapture lib inner s t writes lens ↔
      ¬ (writes.flatten.length = maxCaptureBodyBytes ∧ writes.getLast? = some []) := by
  have hholds := (CaptureWriter.Holds.start hplain).run writes
  have hempty : IsCapture (([] : Bytes), false) [] := ⟨rfl, by simp⟩
  have hread := isCapture_after inner (t := { rc := t }) hempty lens
  rw [List.nil_append] at hholds hread
  obtain ⟨hbody, htruncated⟩ := hholds.copied
  have hstring : (after (CaptureWriter.write lib) { inner := s } writes).bodyString =
      writes.flatten.take maxCaptureBodyBytes := by
    rw [CaptureWriter.bodyString, hholds.capture]
    split <;> simp_all
  constructor
  · rintro ⟨_, ⟨_, hmore⟩, _, _⟩ hempty
    have hlt := hmore.mp (htruncated.mpr (.inr hempty))
    omega
  · intro hnot
    refine ⟨fun w p => ?_, ⟨hstring, ?_⟩, fun _ _ => rfl, hread⟩
    · rw [CaptureWriter.write, CaptureWriter.inner_detectStreaming]
    · rw [htruncated, or_iff_left hnot]

/-- A writer that answers nothing, and has no content type. -/
def quietWriter : InnerWriter Unit Unit where
  parseMediaType := fun _ => none
  contentType := fun _ => []
  write := fun _ _ => ((), ())

/-- A request without a body. -/
def noBody : Unit → Nat → Unit × Bytes × Unit := fun _ _ => ((), [], ())

theorem shortResponse_exact : ExactCapture quietWriter noBody () () [[1, 2], []] [512] :=
  (exactCapture_iff quietWriter noBody () () [[1, 2], []] [512] rfl).mpr (by decide)

/-- A response of a mebibyte, and an empty `Write`. -/
def fullThenEmpty : List Bytes := [List.replicate maxCaptureBodyBytes 0, []]

/-- The whole body is captured, and reported as truncated. -/
theorem fullThenEmpty_truncated : fullThenEmpty.flatten.length = maxCaptureBodyBytes ∧
    (after (CaptureWriter.write quietWriter) { inner := () } fullThenEmpty).truncated = true ∧
      ¬ ExactCapture quietWriter noBody () () fullThenEmpty [] := by
  have hfull : ∀ writes : List Bytes, writes.flatten.length = maxCaptureBodyBytes →
      writes.getLast? = some [] →
      (after (CaptureWriter.write quietWriter) { inner := () } writes).truncated = true ∧
        ¬ ExactCapture quietWriter noBody () () writes [] := by
    intro writes hlength hlast
    have hstart : CaptureWriter.Holds quietWriter { inner := () } [] := .start rfl
    have hholds := hstart.run writes
    have htruncated := hholds.copied.2.mpr (.inr ⟨hlength, hlast⟩)
    refine ⟨htruncated, fun hexact => ?_⟩
    have hlt := hexact.written.2.mp htruncated
    omega
  have hlength : fullThenEmpty.flatten.length = maxCaptureBodyBytes := by simp [fullThenEmpty]
  exact ⟨hlength, hfull fullThenEmpty hlength rfl⟩

end MockAgents
