import MockAgents.Adapter.Batches
import MockAgents.ForStd.JsonDecode
import MockAgents.ForStd.JsonText
import MockAgents.Spec.CassetteFile

/-!
# Batch accounting

What `process` makes of an input file, whatever the endpoint's handler does as long as it
writes JSON: every line of the input has one line in one of the two files, in order, and the
counters add up.
-/

namespace MockAgents

open Json (Lit unquoted)
open Interaction (foldName lit_strJson print_obj strJson)
open Bytes (isUtf8 ofString trimSpace)

/-! ## Which lines are dispatched -/

/-- The custom id of a line; empty if it has none or is not JSON. -/
def lineCustomID (line : Bytes) : Bytes :=
  ((BatchInputLine.unmarshal line).map (·.customID)).getD []

/-- The line has a custom id that no line before it has, a POST method or none, the URL of
    the endpoint, and a body. -/
def isDispatchable (endpoint : Bytes) (before : List Bytes) (line : Bytes) : Bool :=
  match BatchInputLine.unmarshal line with
  | none => false
  | some inp =>
    decide (inp.customID ≠ [] ∧ (∀ l ∈ before, lineCustomID l ≠ inp.customID) ∧
      (inp.method = [] ∨ isPost inp.method = true) ∧ inp.url = endpoint ∧
      Bytes.trimSpace inp.body ≠ [])

def dispatchMarks (endpoint : Bytes) : (before lines : List Bytes) → List Bool
  | _, [] => []
  | before, line :: lines =>
    isDispatchable endpoint before line :: dispatchMarks endpoint (before ++ [line]) lines

/-- The elements with the given mark, in order. -/
def marked {α : Type} (mark : Bool) (l : List α) (marks : List Bool) : List α :=
  ((l.zip marks).filter (·.2 == mark)).map (·.1)

/-- One line of a JSONL file: the text of an object on a single line, with this
    `custom_id`. -/
def IsJSONLine (customID text : Bytes) : Prop :=
  ∃ d ms, Lit d (.obj ms) ∧ text = (Json.obj ms).print ∧ 10 ∉ text ∧
    (Json.obj ms).value.field "custom_id" = some (.str customID)

/-- Every line of the input has one line in one of the files, the lines of either file are
    in the order of the input, and the counters add up. -/
structure Accounted {σ : Type} (endpoint : Bytes) (lines : List Bytes) (r : BatchRun σ) : Prop where
  total : r.counts.total = lines.length
  sum : r.counts.completed + r.counts.failed = r.counts.total
  files : ∃ texts, List.Forall₂ IsJSONLine (lines.map lineCustomID) texts ∧
    splitJSONLines r.out = marked true texts (dispatchMarks endpoint [] lines) ∧
    splitJSONLines r.err = marked false texts (dispatchMarks endpoint [] lines)
  distinct : (marked true (lines.map lineCustomID) (dispatchMarks endpoint [] lines)).Nodup

/-! ## Input lines are valid strings -/

/-- What decoding into a struct keeps, from what each member keeps. -/
theorem unmarshalStruct_inv {σ : Type} {setField : σ → Bytes × Bytes × Json → Option σ}
    {zero : σ} (P : σ → Prop) (hzero : P zero)
    (hset : ∀ s m s', Lit (Json.maxNestingDepth - 1) m.2.2 → P s → setField s m = some s' → P s')
    {line : Bytes} {s : σ} (h : unmarshalStruct setField zero line = some s) : P s := by
  have hfold : ∀ (ms : List (Bytes × Bytes × Json)),
      (∀ m ∈ ms, Lit (Json.maxNestingDepth - 1) m.2.2) → ∀ s s', P s →
        ms.foldlM setField s = some s' → P s' := by
    intro ms
    induction ms with
    | nil =>
      intro _ s s' hs heq
      exact Option.some.inj heq ▸ hs
    | cons m ms ih =>
      intro hms s s' hs heq
      obtain ⟨s₁, hs₁, hrest⟩ := Option.bind_eq_some_iff.mp heq
      exact ih (fun m' hm' => hms m' (by simp [hm'])) s₁ s'
        (hset s m s₁ (hms m (by simp)) hs hs₁) hrest
  revert h
  fun_cases unmarshalStruct setField zero line <;> intro h <;> try cases h
  · rename_i ms r hparse _
    refine hfold ms (fun m hm => ?_) zero s hzero h
    obtain ⟨s', r', hp⟩ := Json.mem_of_parseList hparse hm
    obtain ⟨_, s'', r'', hv⟩ := Json.isRaw_and_of_parseMember hp
    obtain ⟨⟨t, r₁⟩, hvalue, heq⟩ := Option.map_eq_some_iff.mp hv
    have htree : m.2.2 = t := by rw [← (Prod.mk.inj heq).1]
    rw [htree]
    exact Json.lit_of_parseValue hvalue
  · exact hzero

variable {d : Nat}

theorem isUtf8_decodeStr {old s : Bytes} {v : Json} (hv : Lit d v)
    (hold : isUtf8 old = true) (h : Interaction.decodeStr old v = some s) :
    isUtf8 s = true := by
  cases hv with
  | null => exact Option.some.inj h ▸ hold
  | str _ hraw => exact Option.some.inj h ▸ Json.isUtf8_unquoted hraw
  | _ => cases h

theorem isUtf8_lineCustomID (line : Bytes) : isUtf8 (lineCustomID line) = true := by
  unfold lineCustomID
  cases hline : BatchInputLine.unmarshal line with
  | none => rfl
  | some inp =>
    refine unmarshalStruct_inv (fun l => isUtf8 l.customID = true) rfl ?_ hline
    intro l m l' hm hl
    fun_cases BatchInputLine.setField l m <;> intro hset
    · obtain ⟨s, hs, rfl⟩ := Option.map_eq_some_iff.mp hset
      exact isUtf8_decodeStr hm hl hs
    · obtain ⟨s, _, rfl⟩ := Option.map_eq_some_iff.mp hset
      exact hl
    · obtain ⟨s, _, rfl⟩ := Option.map_eq_some_iff.mp hset
      exact hl
    · cases hset
      exact hl
    · cases hset
      exact hl

/-! ## Output lines -/

/-- The text of an object whose keys and values are literals is a single line. -/
theorem not_mem_print {ms : List (Bytes × Json)} (h : Lit d (.obj ms)) :
    10 ∉ (Json.obj ms).print :=
  fun hmem => absurd (h.le_of_mem_print 10 hmem) (by decide)

theorem lit_nil : Lit (d + 1) (.obj []) := .obj (by simp) (by simp)

theorem lit_cons {key : Bytes} {v : Json} {ms : List (Bytes × Json)}
    (hkey : Json.IsRaw key) (hv : Lit d v) (h : Lit (d + 1) (.obj ms)) :
    Lit (d + 1) (.obj ((key, v) :: ms)) := by
  cases h with
  | obj hkeys hvals => exact .obj (by simpa [hkey] using hkeys) (by simpa [hv] using hvals)

theorem isJSONLine_members (l : BatchOutputLine) (hid : isUtf8 l.customID = true)
    {response : Json} (hresponse : Lit (d + 1) response) :
    IsJSONLine l.customID (Json.obj [(ofString "id", strJson l.id),
      (ofString "custom_id", strJson l.customID),
      (ofString "response", response),
      (ofString "error", (l.error.map BatchOutputError.toJson).getD .null)]).print := by
  have herror : Lit (d + 1) ((l.error.map BatchOutputError.toJson).getD .null) := by
    cases l.error with
    | none => exact .null _
    | some e =>
      exact lit_cons (by decide) (lit_strJson d _)
        (lit_cons (by decide) (lit_strJson d _) lit_nil)
  refine ⟨d + 2, _, ?hlit, rfl, not_mem_print ?hlit, ?hfield⟩
  case hlit =>
    exact lit_cons (by decide) (lit_strJson _ _) (lit_cons (by decide)
      (lit_strJson _ _) (lit_cons (by decide) hresponse
        (lit_cons (by decide) herror lit_nil)))
  case hfield =>
    have hkeys : unquoted (ofString "id") ≠ ofString "custom_id" ∧
        unquoted (ofString "custom_id") = ofString "custom_id" ∧
        unquoted (ofString "response") ≠ ofString "custom_id" ∧
        unquoted (ofString "error") ≠ ofString "custom_id" := by decide +kernel
    simp only [Json.value, Json.mapStr, Json.mapStrMembers_eq, List.map_cons, List.map_nil,
      Json.field, strJson]
    simp [hkeys, Json.unquoted_quote true hid]

/-- Every output line whose body is JSON is written, as one line. -/
theorem exists_members (l : BatchOutputLine) (hid : isUtf8 l.customID = true)
    (hbody : ∀ r ∈ l.response, Json.valid r.body = true) :
    ∃ ms, l.members = some ms ∧ IsJSONLine l.customID (Json.obj ms).print := by
  unfold BatchOutputLine.members
  cases hresponse : l.response with
  | none => exact ⟨_, rfl, isJSONLine_members (d := 0) l hid (.null _)⟩
  | some r =>
    obtain ⟨t, ht⟩ := Option.isSome_iff_exists.mp (hbody r hresponse)
    have hlit := (Json.lit_of_parse ht).mapStr fun raw => Json.isRaw_escapeRaw
    simp only [BatchOutputResp.toJson, Interaction.rawJson, ht, Option.map_some]
    refine ⟨_, rfl, isJSONLine_members (d := Json.maxNestingDepth) l hid ?_⟩
    exact lit_cons (by decide) (.num _ (Decimal.isNum_intText _))
      (lit_cons (by decide) (lit_strJson _ _) (lit_cons (by decide) hlit lit_nil))

/-! ## Reading the files -/

theorem splitJSONLines_append {customID text : Bytes} (h : IsJSONLine customID text)
    (rest : Bytes) : splitJSONLines (text ++ 10 :: rest) = text :: splitJSONLines rest := by
  obtain ⟨d, ms, hlit, rfl, hline, _⟩ := h
  -- the text stands between braces, so nothing is trimmed
  have hcr : trimCR (Json.obj ms).print = (Json.obj ms).print := by
    rw [trimCR, print_obj, List.reverse_cons, List.reverse_append,
      List.reverse_singleton, List.singleton_append, List.cons_append]
    simp
  have htrim : trimSpace (Json.obj ms).print = (Json.obj ms).print := by
    exact Bytes.trimSpace_of_ends (by decide) (by decide) (by decide) (by decide)
  have hne : (Json.obj ms).print ≠ [] := by simp [print_obj]
  rw [splitJSONLines, Bytes.split_append hline, List.map_cons, hcr,
    List.filter_cons_of_pos (by simp [htrim, hne]), splitJSONLines]

theorem splitJSONLines_flatMap {texts : List Bytes}
    (h : ∀ text ∈ texts, ∃ customID, IsJSONLine customID text) :
    splitJSONLines (texts.flatMap (· ++ [10])) = texts := by
  induction texts with
  | nil => rfl
  | cons text texts ih =>
    obtain ⟨customID, htext⟩ := h text (by simp)
    rw [List.flatMap_cons, List.append_assoc, List.singleton_append, splitJSONLines_append htext,
      ih fun t ht => h t (by simp [ht])]

/-! ## One line -/

theorem validateInputLine_eq_none_iff (isPrint : Nat → Bool) (inp : BatchInputLine)
    (endpoint : Bytes) (seen : List Bytes) :
    validateInputLine isPrint inp endpoint seen = none ↔
      inp.customID ≠ [] ∧ inp.customID ∉ seen ∧ (inp.method = [] ∨ isPost inp.method = true) ∧
        inp.url = endpoint ∧ trimSpace inp.body ≠ [] := by
  fun_cases validateInputLine isPrint inp endpoint seen <;> simp_all [or_iff_not_imp_left]

section Run

variable {σ : Type} {handler : σ → Bytes → σ × Recorded} (isPrint : Nat → Bool)
  (newIDs : Nat → Bytes × Bytes) (endpoint : Bytes)

/-- The seen set holds the custom ids of the lines so far. -/
def BatchRun.Seen (r : BatchRun σ) (before : List Bytes) : Prop :=
  ∀ id, id ≠ [] → (id ∈ r.seen ↔ ∃ l ∈ before, lineCustomID l = id)

/-- A line is added to one of the files, and counted. -/
structure BatchRun.Writes (r r' : BatchRun σ) (toOut : Bool) (text : Bytes) : Prop where
  out : r'.out = r.out ++ if toOut then text ++ [10] else []
  err : r'.err = r.err ++ if toOut then [] else text ++ [10]
  total : r'.counts.total = r.counts.total + 1
  sum : r'.counts.completed + r'.counts.failed = r.counts.completed + r.counts.failed + 1

theorem writeJSONL_eq {buf : Bytes} {l : BatchOutputLine} {ms : List (Bytes × Json)}
    (h : l.members = some ms) : writeJSONL buf l = buf ++ ((Json.obj ms).print ++ [10]) := by
  simp [writeJSONL, h]

/-- A rejected line goes to the error file. -/
theorem BatchRun.reject_writes (r : BatchRun σ) {customID : Bytes}
    (hid : isUtf8 customID = true) (code message : Bytes) :
    ∃ text, IsJSONLine customID text ∧
      r.Writes (r.reject newIDs customID code message) false text := by
  obtain ⟨ms, hms, hline⟩ := exists_members
    { id := ofString "batch_req_" ++ (newIDs r.counts.total).1, customID := customID,
      error := some ⟨code, message⟩ } hid nofun
  refine ⟨_, hline, ?_, ?_, rfl, ?_⟩
  · simp [BatchRun.reject]
  · simp [BatchRun.reject, writeJSONL_eq hms]
  · show r.counts.completed + (r.counts.failed + 1) = _
    omega

/-- A dispatched line goes to the output file, and completes or fails. -/
theorem BatchRun.dispatch_writes
    (hjson : ∀ s body, Json.valid (handler s body).2.body = true)
    (r : BatchRun σ) {inp : BatchInputLine} (hid : isUtf8 inp.customID = true) :
    ∃ text, IsJSONLine inp.customID text ∧ r.Writes (r.dispatch handler newIDs inp) true text := by
  have hbody : Json.valid (MockAgents.dispatch handler r.state inp.body).2.2 = true := by
    have hvalid := Json.valid_trimSpace (hjson r.state (disableStreaming inp.body))
    simp only [MockAgents.dispatch, Recorded.capture]
    split
    · rename_i hblank
      rw [hblank] at hvalid
      cases hvalid
    · exact hvalid
  obtain ⟨ms, hms, hline⟩ := exists_members
    { id := ofString "batch_req_" ++ (newIDs r.counts.total).1, customID := inp.customID,
      response := some ⟨(MockAgents.dispatch handler r.state inp.body).2.1,
        ofString "req_" ++ (newIDs r.counts.total).2,
        (MockAgents.dispatch handler r.state inp.body).2.2⟩ } hid
    fun _ h => Option.some.inj h ▸ hbody
  refine ⟨_, hline, ?_, ?_, rfl, ?_⟩
  · simp [BatchRun.dispatch, writeJSONL_eq hms]
  · simp [BatchRun.dispatch]
  · simp only [BatchRun.dispatch]
    split <;> omega

variable {r : BatchRun σ} {before : List Bytes}

/-- One pass of the loop writes one line, to the file where it belongs. -/
theorem BatchRun.line_writes (hjson : ∀ s body, Json.valid (handler s body).2.body = true)
    (hseen : r.Seen before) (raw : Bytes) :
    (∃ text, IsJSONLine (lineCustomID raw) text ∧
      r.Writes (r.line handler isPrint newIDs endpoint raw)
        (isDispatchable endpoint before raw) text) ∧
      (r.line handler isPrint newIDs endpoint raw).Seen (before ++ [raw]) := by
  have hid := isUtf8_lineCustomID raw
  unfold BatchRun.line isDispatchable
  cases hraw : BatchInputLine.unmarshal raw with
  | none =>
    have hnone : lineCustomID raw = [] := by simp [lineCustomID, hraw]
    rw [hnone] at hid ⊢
    refine ⟨r.reject_writes newIDs hid _ _, fun id hne => ?_⟩
    show id ∈ r.seen ↔ _
    rw [hseen id hne]
    simp [hnone, hne.symm]
  | some inp =>
    have hsome : lineCustomID raw = inp.customID := by simp [lineCustomID, hraw]
    rw [hsome] at hid ⊢
    -- the id is entered into the seen set, which changes nothing that is written
    have htaken : ∃ seen, (if inp.customID = [] then r
        else { r with seen := inp.customID :: r.seen }) = { r with seen := seen } ∧
        ∀ id, id ≠ [] → (id ∈ seen ↔ ∃ l ∈ before ++ [raw], lineCustomID l = id) := by
      by_cases hempty : inp.customID = []
      · refine ⟨r.seen, by rw [if_pos hempty], fun id hne => ?_⟩
        rw [hseen id hne]
        simp [hsome, hempty, hne.symm]
      · refine ⟨inp.customID :: r.seen, by rw [if_neg hempty], fun id hne => ?_⟩
        rw [List.mem_cons, hseen id hne]
        simp only [List.mem_append, List.mem_singleton, or_and_right, exists_or,
          exists_eq_left, hsome]
        rw [or_comm, eq_comm]
    obtain ⟨seen, heq, hseen'⟩ := htaken
    simp only [heq]
    have hmark : (inp.customID ≠ [] ∧ (∀ l ∈ before, lineCustomID l ≠ inp.customID) ∧
        (inp.method = [] ∨ isPost inp.method = true) ∧ inp.url = endpoint ∧
        trimSpace inp.body ≠ []) ↔ validateInputLine isPrint inp endpoint r.seen = none := by
      rw [validateInputLine_eq_none_iff]
      refine and_congr_right fun hne => and_congr_left fun _ => ?_
      simp [hseen _ hne]
    simp only [hmark]
    cases validateInputLine isPrint inp endpoint r.seen with
    | none =>
      obtain ⟨text, hline, hwrites⟩ :=
        BatchRun.dispatch_writes newIDs hjson { r with seen := seen } hid
      exact ⟨⟨text, hline, hwrites.out, hwrites.err, hwrites.total, hwrites.sum⟩, hseen'⟩
    | some reason =>
      obtain ⟨text, hline, hwrites⟩ := BatchRun.reject_writes newIDs { r with seen := seen } hid
        (ofString "invalid_request") reason
      exact ⟨⟨text, hline, hwrites.out, hwrites.err, hwrites.total, hwrites.sum⟩, hseen'⟩

/-! ## The whole file -/

variable {α : Type}

theorem marked_cons (mark : Bool) (a : α) (l : List α) (b : Bool) (marks : List Bool) :
    marked mark (a :: l) (b :: marks) =
      (if b == mark then [a] else []) ++ marked mark l marks := by
  simp only [marked, List.zip_cons_cons, List.filter_cons]
  split <;> rfl

/-- The loop writes one line for each line, and counts it. -/
theorem BatchRun.lines_write (hjson : ∀ s body, Json.valid (handler s body).2.body = true)
    (lines : List Bytes) (hseen : r.Seen before) :
    let r' := lines.foldl (BatchRun.line handler isPrint newIDs endpoint) r
    let marks := dispatchMarks endpoint before lines
    (∃ texts, List.Forall₂ IsJSONLine (lines.map lineCustomID) texts ∧
      r'.out = r.out ++ (marked true texts marks).flatMap (· ++ [10]) ∧
      r'.err = r.err ++ (marked false texts marks).flatMap (· ++ [10])) ∧
      r'.counts.total = r.counts.total + lines.length ∧
      r'.counts.completed + r'.counts.failed =
        r.counts.completed + r.counts.failed + lines.length := by
  induction lines generalizing r before with
  | nil => exact ⟨⟨[], .nil, by simp [marked], by simp [marked]⟩, rfl, rfl⟩
  | cons line lines ih =>
    intro r' marks
    obtain ⟨⟨text, hline, hwrites⟩, hseen'⟩ := BatchRun.line_writes isPrint newIDs endpoint hjson
      hseen line
    obtain ⟨⟨texts, hlines, hout, herr⟩, htotal, hsum⟩ := ih hseen'
    refine ⟨⟨text :: texts, .cons hline hlines, ?_, ?_⟩, ?_, ?_⟩ <;>
      simp only [r', List.foldl_cons]
    · rw [hout, hwrites.out]
      simp only [marks, dispatchMarks, marked_cons]
      cases isDispatchable endpoint before line <;> simp
    · rw [herr, hwrites.err]
      simp only [marks, dispatchMarks, marked_cons]
      cases isDispatchable endpoint before line <;> simp
    · rw [htotal, hwrites.total, List.length_cons]
      omega
    · rw [hsum, hwrites.sum, List.length_cons]
      omega

theorem mem_marked {mark : Bool} {l : List α} {marks : List Bool} {a : α}
    (h : a ∈ marked mark l marks) : a ∈ l := by
  obtain ⟨x, hx, rfl⟩ := List.mem_map.mp h
  exact (List.of_mem_zip (List.mem_filter.mp hx).1).1

/-- The dispatched lines have distinct custom ids, none of which occurs before them. -/
theorem nodup_dispatched (before lines : List Bytes) :
    (marked true (lines.map lineCustomID) (dispatchMarks endpoint before lines)).Nodup ∧
      ∀ id ∈ marked true (lines.map lineCustomID) (dispatchMarks endpoint before lines),
        ∀ l ∈ before, lineCustomID l ≠ id := by
  induction lines generalizing before with
  | nil => exact ⟨List.nodup_nil, nofun⟩
  | cons line lines ih =>
    obtain ⟨hnodup, hnew⟩ := ih (before ++ [line])
    rw [List.map_cons, dispatchMarks, marked_cons]
    cases hmark : isDispatchable endpoint before line with
    | false =>
      refine ⟨by simpa using hnodup, fun id hid l hl => ?_⟩
      exact hnew id (by simpa using hid) l (by simp [hl])
    | true =>
      have hfresh : ∀ l ∈ before, lineCustomID l ≠ lineCustomID line := by
        unfold isDispatchable at hmark
        cases hline : BatchInputLine.unmarshal line with
        | none => simp [hline] at hmark
        | some inp =>
          rw [hline] at hmark
          have hcustom : lineCustomID line = inp.customID := by simp [lineCustomID, hline]
          rw [hcustom]
          exact (of_decide_eq_true hmark).2.1
      simp only [beq_self_eq_true, if_true, List.singleton_append, List.nodup_cons]
      refine ⟨⟨fun hmem => hnew _ hmem line (by simp) rfl, hnodup⟩, fun id hid l hl => ?_⟩
      cases List.mem_cons.mp hid with
      | inl heq => exact heq ▸ hfresh l hl
      | inr hid => exact hnew id hid l (by simp [hl])

/-- Every accepted input file is accounted for. -/
theorem process_accounted
    (hjson : ∀ s body, Json.valid (handler s body).2.body = true) {s : σ}
    {input : Bytes} {r : BatchRun σ}
    (h : process handler isPrint newIDs endpoint s input = .ok r) :
    Accounted endpoint (splitJSONLines input) r := by
  unfold process at h
  simp only at h
  split at h
  · cases h
  · split at h
    · cases h
    · obtain rfl := Except.ok.inj h
      have hseen : ({ state := s } : BatchRun σ).Seen [] := fun id _ => by simp
      obtain ⟨⟨texts, hlines, hout, herr⟩, htotal, hsum⟩ := BatchRun.lines_write isPrint
        newIDs endpoint hjson (splitJSONLines input) (r := { state := s }) hseen
      have hall : ∀ text ∈ texts, ∃ customID, IsJSONLine customID text := by
        intro text htext
        obtain ⟨i, hi, rfl⟩ := List.mem_iff_getElem.mp htext
        exact ⟨_, hlines.get (by rw [hlines.length_eq]; exact hi) hi⟩
      refine ⟨?_, ?_, ⟨texts, hlines, ?_, ?_⟩, (nodup_dispatched endpoint [] _).1⟩
      · rw [htotal]
        simp
      · rw [hsum, htotal]
        rfl
      · rw [hout]
        exact splitJSONLines_flatMap fun text ht => hall text (mem_marked ht)
      · rw [herr]
        exact splitJSONLines_flatMap fun text ht => hall text (mem_marked ht)

end Run

/-- A line, a line with its custom id again, and a line that is not JSON. -/
def threeLines : Bytes :=
  ofString ("\x7b\"custom_id\":\"a\",\"url\":\"/v1/embeddings\",\"body\":\x7b\x7d\x7d\n" ++
    "\x7b\"custom_id\":\"a\",\"url\":\"/v1/embeddings\",\"body\":\x7b\x7d\x7d\n" ++ "null\x7d\n")

/-- An endpoint that answers every request with an empty object. -/
def emptyObject (_ : Unit) (_ : Bytes) : Unit × Recorded := ((), ⟨200, [123, 125, 10]⟩)

/-- One of the three lines is dispatched. -/
theorem threeLines_accounted : ∃ r, process emptyObject (fun _ => true) (fun _ => ([], []))
      (ofString "/v1/embeddings") () threeLines = .ok r ∧ r.counts = ⟨3, 1, 2⟩ ∧
    Accounted (ofString "/v1/embeddings") (splitJSONLines threeLines) r := by
  have hlen : (splitJSONLines threeLines).length = 3 := by decide +kernel
  have hok : process emptyObject (fun _ => true) (fun _ => ([], []))
      (ofString "/v1/embeddings") () threeLines = .ok ((splitJSONLines threeLines).foldl
        (BatchRun.line emptyObject (fun _ => true) (fun _ => ([], []))
          (ofString "/v1/embeddings")) { state := () }) := by
    simp [process, hlen, maxBatchRequests]
  have hvalid : Json.valid [123, 125, 10] = true := by decide
  exact ⟨_, hok, by decide +kernel, process_accounted _ _ _ (fun _ _ => hvalid) hok⟩

end MockAgents
