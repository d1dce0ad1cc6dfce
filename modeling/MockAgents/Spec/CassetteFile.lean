import MockAgents.ForStd.List
import MockAgents.Recording.Cassette

/-!
# What a cassette file holds

Reading a line back gives the interaction as it was stored: strings with U+FFFD for the
bytes that are not UTF-8, and bodies compacted. A line nests one object deeper than its
bodies, so a body at the decoder's nesting limit is written but cannot be read.
-/

namespace MockAgents

open Json (unquoted Lit)
open Json (quote compact escapeRaw maxNestingDepth joinComma printMembers)
open Bytes (isUtf8 toValid)
open Option (bind_some map_eq_some_iff map_some)

/-! ## What is stored -/

/-- A map with U+FFFD for the bytes that are not UTF-8. -/
def StrMap.stored (m : StrMap) : StrMap :=
  .ofList (m.entries.map fun e => (toValid e.1, toValid e.2))

theorem StrMap.entries_ofList (l : List (Bytes × Bytes)) :
    (StrMap.ofList l).entries = SortedMap.ofList l := by
  suffices ∀ m : StrMap, (l.foldl (fun m e => m.set e.1 e.2) m).entries =
      l.foldl (fun m e => SortedMap.insert e.1 e.2 m) m.entries from this .empty
  induction l with
  | nil => exact fun m => rfl
  | cons e l ih => exact fun m => ih (m.set e.1 e.2)

def StrMap.IsUtf8 (m : StrMap) : Prop :=
  ∀ e ∈ m.entries, isUtf8 e.1 = true ∧ isUtf8 e.2 = true

theorem StrMap.ext {m m' : StrMap} (h : m.entries = m'.entries) : m = m' := by
  cases m
  cases m'
  congr

theorem StrMap.stored_eq_self_iff (m : StrMap) : m = m.stored ↔ m.IsUtf8 := by
  constructor
  · intro h e he
    rw [h, stored, entries_ofList] at he
    obtain ⟨e', _, rfl⟩ := List.mem_map.mp (SortedMap.mem_ofList he)
    exact ⟨Bytes.isUtf8_toValid _, Bytes.isUtf8_toValid _⟩
  · intro h
    have hmap : (m.entries.map fun e => (toValid e.1, toValid e.2)) =
        m.entries.map id := by
      refine List.map_congr_left fun e he => ?_
      rw [Bytes.toValid_of_isUtf8 (h e he).1, Bytes.toValid_of_isUtf8 (h e he).2]
      rfl
    refine StrMap.ext ?_
    rw [stored, entries_ofList, hmap, List.map_id, SortedMap.ofList_of_sorted m.sorted]

def StreamEvent.stored (ev : StreamEvent) : StreamEvent := { ev with data := toValid ev.data }

namespace Interaction

/-- The interaction as a cassette file holds it. -/
def stored (it : Interaction) : Interaction where
  recordedAt := it.recordedAt
  hash := toValid it.hash
  method := toValid it.method
  path := toValid it.path
  requestHeaders := it.requestHeaders.stored
  requestBody := (Json.compact it.requestBody).getD []
  responseStatus := it.responseStatus
  responseHeaders := it.responseHeaders.stored
  responseBody := (Json.compact it.responseBody).getD []
  streaming := it.streaming
  streamEvents := it.streamEvents.map StreamEvent.stored

/-- The body is empty, or JSON that nests at most `depth` deep. -/
def BodyFits (depth : Nat) (body : Bytes) : Prop :=
  body = [] ∨ ∃ t, Json.parse body = some t ∧ Lit depth t

variable {d : Nat} {body : Bytes}

theorem BodyFits.mono {d' : Nat} (hle : d ≤ d') (h : BodyFits d body) : BodyFits d' body :=
  h.imp_right fun ⟨t, ht, hlit⟩ => ⟨t, ht, hlit.mono hle⟩

/-! ## The fields are decoded -/

theorem ofKey_tag (f : Field) : Field.ofKey (unquoted f.tag) = some f := by
  cases f <;> decide +kernel

theorem isRaw_tag (f : Field) : Json.IsRaw f.tag := by
  cases f <;> decide

theorem unquoted_quote (s : Bytes) : unquoted (quote true s) = toValid s := by
  rw [unquoted, Json.unquote_quote, Option.getD_some]

theorem decodeStr_strJson (old s : Bytes) : decodeStr old (strJson s) = some (toValid s) := by
  rw [strJson, decodeStr, unquoted_quote]

theorem inInt64_toInt (i : Int64) : Decimal.inInt64 i.toInt = true := by
  have hlow := i.le_toInt
  have hhigh := i.toInt_lt
  simp only [Decimal.inInt64, decide_eq_true_eq]
  omega

theorem decodeInt_intText (old i : Int64) :
    decodeInt old (.num (Decimal.intText i.toInt)) = some i := by
  rw [decodeInt, Decimal.parseInt_intText (inInt64_toInt i), map_some, Int64.ofInt_toInt]

theorem decodeHeaders_headersJson (h : StrMap) :
    decodeHeaders .empty (headersJson h) = some h.stored := by
  suffices ∀ (l : List (Bytes × Bytes)) (m : StrMap),
      (l.map fun e => (quote true e.1, strJson e.2)).foldlM
        (fun m e => (decodeStr [] e.2).map (m.set (unquoted e.1))) m =
      some ((l.map fun e => (toValid e.1, toValid e.2)).foldl
        (fun m e => m.set e.1 e.2) m) from this h.entries .empty
  intro l
  induction l with
  | nil => exact fun m => rfl
  | cons e l ih =>
    intro m
    rw [List.map_cons, List.foldlM_cons, decodeStr_strJson, unquoted_quote]
    exact ih _

theorem decodeEvent_eventJson (ev : StreamEvent) : decodeEvent (eventJson ev) = some ev.stored := by
  have hdelay : foldName (unquoted delayTag) = foldName delayTag := by decide +kernel
  have hdata : foldName (unquoted dataTag) = foldName dataTag := by decide
  have hne : foldName dataTag ≠ foldName delayTag := by decide
  simp only [eventJson, decodeEvent, List.foldlM_cons, List.foldlM_nil, setEventField, hdelay,
    hdata, if_true, if_neg hne, decodeInt_intText, decodeStr_strJson, map_some]
  rfl

theorem decodeEvents_map (evs : List StreamEvent) :
    decodeEvents (.arr (evs.map eventJson)) = some (evs.map StreamEvent.stored) := by
  rw [decodeEvents, List.mapM_map]
  exact List.mapM_eq_some_map fun ev _ => decodeEvent_eventJson ev

/-! ## One field after another -/

/-- A member with the text of its value. -/
def withPrint (m : Bytes × Json) : Bytes × Bytes × Json := (m.1, m.2.print, m.2)

/-- Decode members into an interaction. -/
def setFields (it : Interaction) (ms : List (Bytes × Json)) : Option Interaction :=
  (ms.map withPrint).foldlM setField it

theorem setFields_append (it : Interaction) (ms ms' : List (Bytes × Json)) :
    it.setFields (ms ++ ms') = (it.setFields ms).bind fun it => it.setFields ms' := by
  simp only [setFields, List.map_append, List.foldlM_append]
  rfl

theorem setFields_one (it : Interaction) (m : Bytes × Json) :
    it.setFields [m] = it.setField (withPrint m) := by
  simp [setFields]

theorem setFields_cons (it : Interaction) (m : Bytes × Json) (ms : List (Bytes × Json)) :
    it.setFields (m :: ms) = (it.setField (withPrint m)).bind fun it => it.setFields ms := by
  rw [← List.singleton_append, setFields_append, setFields_one]

variable {f : Field} {ms : List (Bytes × Json)}

/-- A body is stored compacted, and an empty one stays out. -/
theorem bodyField_cases (h : bodyField f body = some ms) :
    (ms = [] ∧ (compact body).getD [] = []) ∨
      ∃ t, Json.parse body = some t ∧ ms = [(f.tag, t.mapStr escapeRaw)] ∧
        (compact body).getD [] = (t.mapStr escapeRaw).print := by
  unfold bodyField at h
  split at h
  · rename_i hbody
    subst hbody
    exact .inl ⟨(Option.some.inj h).symm, rfl⟩
  · obtain ⟨u, hu, rfl⟩ := map_eq_some_iff.mp h
    obtain ⟨t, ht, rfl⟩ := map_eq_some_iff.mp hu
    exact .inr ⟨t, ht, rfl, by rw [compact, ht]; rfl⟩

variable {it : Interaction} {isEmpty : Bool} {t : Json}

theorem setFields_omitEmpty {it' : Interaction} (hempty : isEmpty = true → it = it')
    (hset : isEmpty = false → it.setField (withPrint (f.tag, t)) = some it') :
    it.setFields (omitEmpty f isEmpty t) = some it' := by
  unfold omitEmpty
  cases isEmpty with
  | true => exact congrArg some (hempty rfl)
  | false => exact (setFields_one it (f.tag, t)).trans (hset rfl)

theorem stored_of_isEmpty {h : StrMap} (hempty : h.entries.isEmpty = true) : h.stored = .empty := by
  rw [List.isEmpty_iff] at hempty
  rw [StrMap.stored, hempty]
  rfl

theorem setFields_requestHeaders (hnil : it.requestHeaders = .empty) (h : StrMap) :
    it.setFields (omitEmpty .requestHeaders h.entries.isEmpty (headersJson h)) =
      some { it with requestHeaders := h.stored } := by
  refine setFields_omitEmpty (fun hempty => ?_) (fun _ => ?_)
  · rw [stored_of_isEmpty hempty, ← hnil]
  · simp [withPrint, setField, ofKey_tag, hnil, decodeHeaders_headersJson]

theorem setFields_responseHeaders (hnil : it.responseHeaders = .empty) (h : StrMap) :
    it.setFields (omitEmpty .responseHeaders h.entries.isEmpty (headersJson h)) =
      some { it with responseHeaders := h.stored } := by
  refine setFields_omitEmpty (fun hempty => ?_) (fun _ => ?_)
  · rw [stored_of_isEmpty hempty, ← hnil]
  · simp [withPrint, setField, ofKey_tag, hnil, decodeHeaders_headersJson]

theorem setFields_requestBody (hnil : it.requestBody = [])
    (h : bodyField .requestBody body = some ms) :
    it.setFields ms = some { it with requestBody := (compact body).getD [] } := by
  obtain ⟨rfl, hbody⟩ | ⟨t, _, rfl, hbody⟩ := bodyField_cases h
  · rw [hbody, ← hnil]
    rfl
  · rw [setFields_one, hbody]
    simp only [withPrint, setField, ofKey_tag]

theorem setFields_responseBody (hnil : it.responseBody = [])
    (h : bodyField .responseBody body = some ms) :
    it.setFields ms = some { it with responseBody := (compact body).getD [] } := by
  obtain ⟨rfl, hbody⟩ | ⟨t, _, rfl, hbody⟩ := bodyField_cases h
  · rw [hbody, ← hnil]
    rfl
  · rw [setFields_one, hbody]
    simp only [withPrint, setField, ofKey_tag]

theorem setFields_streaming (hfalse : it.streaming = false) (b : Bool) :
    it.setFields (omitEmpty .streaming (!b) (.bool b)) = some { it with streaming := b } := by
  refine setFields_omitEmpty (fun hempty => ?_) (fun _ => ?_)
  · have hb : b = it.streaming := by simpa [hfalse] using hempty
    rw [hb]
  · simp [withPrint, setField, ofKey_tag, decodeBool]

theorem setFields_streamEvents (hnil : it.streamEvents = []) (evs : List StreamEvent) :
    it.setFields (omitEmpty .streamEvents evs.isEmpty (.arr (evs.map eventJson))) =
      some { it with streamEvents := evs.map StreamEvent.stored } := by
  refine setFields_omitEmpty (fun hempty => ?_) (fun _ => ?_)
  · rw [List.isEmpty_iff] at hempty
    rw [hempty, List.map_nil, ← hnil]
  · simp [withPrint, setField, ofKey_tag, decodeEvents_map]

/-- The first four fields, which are never omitted. -/
theorem setFields_front (it : Interaction) :
    zero.setFields [(Field.recordedAt.tag, .str it.recordedAt.format),
        (Field.hash.tag, strJson it.hash), (Field.method.tag, strJson it.method),
        (Field.path.tag, strJson it.path)] =
      some { zero with
        recordedAt := it.recordedAt
        hash := toValid it.hash
        method := toValid it.method
        path := toValid it.path } := by
  simp only [setFields_cons, withPrint, setField, ofKey_tag, decodeTime, Time.parse_format,
    decodeStr_strJson, map_some, bind_some]
  rfl

theorem setFields_members (h : it.members = some ms) : zero.setFields ms = some it.stored := by
  unfold members at h
  split at h
  · rename_i request response hrequest hresponse
    cases h
    rw [setFields_append, setFields_append, setFields_append, setFields_append, setFields_append,
      setFields_append, setFields_append, setFields_front, bind_some,
      setFields_requestHeaders rfl, bind_some, setFields_requestBody rfl hrequest,
      bind_some, setFields_one]
    simp only [withPrint, setField, ofKey_tag, decodeInt_intText, map_some,
      bind_some]
    rw [setFields_responseHeaders rfl, bind_some, setFields_responseBody rfl hresponse,
      bind_some, setFields_streaming rfl, bind_some, setFields_streamEvents rfl]
    rfl
  · cases h

/-! ## The members are literals -/

theorem lit_strJson (d : Nat) (s : Bytes) : Lit d (strJson s) := .str d (Json.isRaw_quote true s)

theorem lit_headersJson (d : Nat) (h : StrMap) : Lit (d + 1) (headersJson h) := by
  refine .obj (fun m hm => ?_) (fun m hm => ?_)
  · obtain ⟨e, _, rfl⟩ := List.mem_map.mp hm
    exact Json.isRaw_quote true e.1
  · obtain ⟨e, _, rfl⟩ := List.mem_map.mp hm
    exact lit_strJson d e.2

theorem lit_eventJson (d : Nat) (ev : StreamEvent) : Lit (d + 1) (eventJson ev) := by
  refine .obj ?_ ?_
  · have hdelay : Json.IsRaw delayTag := by decide
    have hdata : Json.IsRaw dataTag := by decide
    simp [hdelay, hdata]
  · have hnum : Lit d (.num (Decimal.intText ev.delayMs.toInt)) := .num d (Decimal.isNum_intText _)
    simp [hnum, lit_strJson]

/-- A member whose key is a tag and whose value nests at most `d` deep. -/
def MemberLit (d : Nat) (m : Bytes × Json) : Prop := Json.IsRaw m.1 ∧ Lit d m.2

theorem memberLit_omitEmpty (ht : Lit d t) : ∀ m ∈ omitEmpty f isEmpty t, MemberLit d m := by
  unfold omitEmpty
  split
  · simp
  · simpa using ⟨isRaw_tag f, ht⟩

theorem memberLit_bodyField (h : bodyField f body = some ms) (hfits : BodyFits d body) :
    ∀ m ∈ ms, MemberLit d m := by
  obtain ⟨rfl, _⟩ | ⟨t, ht, rfl, _⟩ := bodyField_cases h
  · simp
  · obtain rfl | ⟨t', ht', hlit⟩ := hfits
    · cases ht
    · rw [ht] at ht'
      cases ht'
      have hescaped := hlit.mapStr fun _ => Json.isRaw_escapeRaw
      simpa using ⟨isRaw_tag f, hescaped⟩

/-- Two arrays or objects are enough for everything but the bodies. -/
theorem memberLit_members (h : it.members = some ms) (hrequest : BodyFits (d + 2) it.requestBody)
    (hresponse : BodyFits (d + 2) it.responseBody) : ∀ m ∈ ms, MemberLit (d + 2) m := by
  unfold members at h
  split at h
  · rename_i request response hreq hresp
    cases h
    have hevents : Lit (d + 2) (.arr (it.streamEvents.map eventJson)) := by
      refine .arr fun t ht => ?_
      obtain ⟨ev, _, rfl⟩ := List.mem_map.mp ht
      exact lit_eventJson d ev
    have hnum : Lit (d + 2) (.num (Decimal.intText it.responseStatus.toInt)) :=
      .num _ (Decimal.isNum_intText _)
    have htime : Lit (d + 2) (.str it.recordedAt.format) := .str _ it.recordedAt.isRaw_format
    intro m hm
    simp only [List.mem_append] at hm
    rcases hm with ((((((hm | hm) | hm) | hm) | hm) | hm) | hm) | hm
    · simp only [List.mem_cons, List.not_mem_nil, or_false] at hm
      rcases hm with rfl | rfl | rfl | rfl
      · exact ⟨isRaw_tag .recordedAt, htime⟩
      · exact ⟨isRaw_tag .hash, lit_strJson _ _⟩
      · exact ⟨isRaw_tag .method, lit_strJson _ _⟩
      · exact ⟨isRaw_tag .path, lit_strJson _ _⟩
    · exact memberLit_omitEmpty (lit_headersJson _ _) m hm
    · exact memberLit_bodyField hreq hrequest m hm
    · obtain rfl := List.mem_singleton.mp hm
      exact ⟨isRaw_tag .responseStatus, hnum⟩
    · exact memberLit_omitEmpty (lit_headersJson _ _) m hm
    · exact memberLit_bodyField hresp hresponse m hm
    · exact memberLit_omitEmpty (.bool _ _) m hm
    · exact memberLit_omitEmpty hevents m hm
  · cases h

theorem bodyFits_of_bodyField (h : bodyField f body = some ms) (hlit : ∀ m ∈ ms, Lit d m.2) :
    BodyFits d body := by
  unfold bodyField at h
  split at h
  · exact .inl ‹_›
  · obtain ⟨u, hu, rfl⟩ := map_eq_some_iff.mp h
    obtain ⟨t, ht, rfl⟩ := map_eq_some_iff.mp hu
    have hescaped : Lit d (t.mapStr escapeRaw) := by simpa using hlit
    exact .inr ⟨t, ht, (Json.lit_of_parse ht).of_mapStr hescaped⟩

/-- If the members nest at most `d` deep, so do the bodies. -/
theorem bodyFits_of_members (h : it.members = some ms) (hlit : ∀ m ∈ ms, Lit d m.2) :
    BodyFits d it.requestBody ∧ BodyFits d it.responseBody := by
  unfold members at h
  split at h
  · rename_i request response hreq hresp
    cases h
    constructor
    · exact bodyFits_of_bodyField hreq fun m hm => hlit m (by simp [hm])
    · exact bodyFits_of_bodyField hresp fun m hm => hlit m (by simp [hm])
  · cases h

/-- Encoding succeeds iff the bodies are empty or JSON. -/
theorem members_isSome_iff (it : Interaction) :
    it.members.isSome = true ↔
      BodyFits maxNestingDepth it.requestBody ∧
        BodyFits maxNestingDepth it.responseBody := by
  have hbody : ∀ (f : Field) (body : Bytes),
      (∃ ms, bodyField f body = some ms) ↔ BodyFits maxNestingDepth body := by
    intro f body
    unfold bodyField BodyFits rawJson
    split
    · rename_i hnil
      simp [hnil]
    · rename_i hne
      constructor
      · rintro ⟨ms, h⟩
        obtain ⟨u, hu, _⟩ := map_eq_some_iff.mp h
        obtain ⟨t, ht, _⟩ := map_eq_some_iff.mp hu
        exact .inr ⟨t, ht, Json.lit_of_parse ht⟩
      · rintro (hnil | ⟨t, ht, _⟩)
        · exact absurd hnil hne
        · exact ⟨_, by rw [ht]; rfl⟩
  rw [← hbody .requestBody, ← hbody .responseBody]
  unfold members
  split
  · rename_i request response hreq hresp
    simp [hreq, hresp]
  · rename_i hnone
    simp only [Option.isSome_none, Bool.false_eq_true, false_iff]
    rintro ⟨⟨request, hreq⟩, response, hresp⟩
    exact hnone request response hreq hresp

theorem encode_isSome_iff (it : Interaction) :
    it.encode.isSome = true ↔
      BodyFits maxNestingDepth it.requestBody ∧
        BodyFits maxNestingDepth it.responseBody := by
  rw [encode, Option.isSome_map, members_isSome_iff]

/-! ## The line is decoded -/

theorem parseMembers_print (h : ∀ m ∈ ms, MemberLit d m) (rest : Bytes) :
    parseMembers d (joinComma (printMembers ms) ++ 125 :: rest) =
      some (ms.map withPrint, rest) := by
  have hjoin : printMembers ms =
      (ms.map withPrint).map fun m => Json.printMember m.1 m.2.1 := by
    rw [Json.printMembers_eq, List.map_map]
    rfl
  rw [hjoin]
  refine Json.parseList_joinComma rfl rfl (by decide) (fun x hx rest hrest => ?_)
    (fun m _ => Json.startsElem_printMember _ _) rest
  obtain ⟨m, hm, rfl⟩ := List.mem_map.mp hx
  obtain ⟨hkey, hlit⟩ := h m hm
  exact Json.parseMember_printMember hkey hlit.startsElem
    (Json.withText_append (Json.parseValue_print hlit hrest))

theorem print_obj (ms : List (Bytes × Json)) :
    (Json.obj ms).print = 123 :: (joinComma (printMembers ms) ++ [125]) := rfl

theorem unmarshal_obj (ms : List (Bytes × Json)) :
    unmarshal (Json.obj ms).print = ofParsed (parseMembers (maxNestingDepth - 1)
      (joinComma (printMembers ms) ++ [125])) := by
  simp only [print_obj, unmarshal, Json.skipWs_cons (show Json.isSpace 123 = false from rfl)]

theorem unmarshal_print (h : it.members = some ms)
    (hrequest : BodyFits (maxNestingDepth - 1) it.requestBody)
    (hresponse : BodyFits (maxNestingDepth - 1) it.responseBody) :
    unmarshal (Json.obj ms).print = some it.stored := by
  have hparse := parseMembers_print (memberLit_members (d := 9997) h hrequest hresponse) []
  rw [unmarshal_obj]
  have hdepth : maxNestingDepth - 1 = 9997 + 2 := rfl
  rw [hdepth, hparse]
  exact setFields_members h

theorem parseMembers_mono {s : Bytes} {x : List (Bytes × Bytes × Json) × Bytes}
    (h : parseMembers d s = some x) : parseMembers (d + 1) s = some x :=
  Json.parseList_mono
    (Json.parseMember_mono (Json.withText_mono fun _ _ => Json.parseValue_mono)) h

/-- A line with a body that nests too deep cannot be decoded. -/
theorem unmarshal_eq_none (h : it.members = some ms)
    (hdeep : ¬ (BodyFits (maxNestingDepth - 1) it.requestBody ∧
      BodyFits (maxNestingDepth - 1) it.responseBody)) :
    unmarshal (Json.obj ms).print = none := by
  -- with one more level the line is parsed, so what the decoder could parse is the same
  obtain ⟨hrequest, hresponse⟩ := (members_isSome_iff it).mp (by simp [h])
  have hfull := parseMembers_print (memberLit_members (d := 9998) h hrequest hresponse) []
  rw [unmarshal_obj]
  cases hparse : parseMembers (maxNestingDepth - 1)
      (joinComma (printMembers ms) ++ [125]) with
  | some x =>
    have hsame := parseMembers_mono hparse
    have hdepth : maxNestingDepth - 1 + 1 = 9998 + 2 := rfl
    rw [hdepth, hfull] at hsame
    cases hsame
    refine absurd (bodyFits_of_members h fun m hm => ?_) hdeep
    obtain ⟨s, r, hmember⟩ := Json.mem_of_parseList hparse (List.mem_map_of_mem hm)
    obtain ⟨_, s', r', htext⟩ := Json.isRaw_and_of_parseMember hmember
    obtain ⟨⟨t, r''⟩, hvalue, heq⟩ := map_eq_some_iff.mp htext
    have ht : t = m.2 := congrArg (fun x => x.1.2) heq
    rw [← ht]
    exact Json.lit_of_parseValue hvalue
  | none => rfl

/-! ## The file is loaded -/

/-- The line can be read back: the bodies leave room for the object around them, and the
    line with its newline fits the scanner's buffer. -/
def Loadable (it : Interaction) : Prop :=
  BodyFits (Json.maxNestingDepth - 1) it.requestBody ∧
    BodyFits (Json.maxNestingDepth - 1) it.responseBody ∧
    ∀ line, it.encode = some line → line.length ≤ maxCassetteLine

/-- An encoded line is an object and a newline, and neither ends early nor has spaces around
    it. -/
theorem encode_eq_some {line : Bytes} (h : it.encode = some line) :
    ∃ ms, it.members = some ms ∧ line = (Json.obj ms).print ++ [10] ∧
      10 ∉ (Json.obj ms).print ∧ Bytes.trimSpace (Json.obj ms).print = (Json.obj ms).print ∧
      (Json.obj ms).print ≠ [] := by
  obtain ⟨ms, hms, rfl⟩ := map_eq_some_iff.mp h
  obtain ⟨hrequest, hresponse⟩ := (members_isSome_iff it).mp (by simp [hms])
  have hmembers := memberLit_members (d := 9998) hms hrequest hresponse
  have hlit : Lit 10001 (Json.obj ms) :=
    .obj (fun m hm => (hmembers m hm).1) (fun m hm => (hmembers m hm).2)
  refine ⟨ms, hms, rfl, fun hmem => ?_, ?_, by simp [print_obj]⟩
  · exact absurd (hlit.le_of_mem_print 10 hmem) (by decide)
  · rw [print_obj]
    exact Bytes.trimSpace_of_ends (by decide) (by decide) (by decide) (by decide)

theorem Loadable.encode_isSome (h : it.Loadable) : it.encode.isSome = true :=
  (encode_isSome_iff it).mpr ⟨h.1.mono (by decide), h.2.1.mono (by decide)⟩

end Interaction

open Interaction in
/-- One line of a file: it is read back if it can be, and otherwise the file cannot be
    loaded. -/
theorem loadLines_encode {it : Interaction} {line : Bytes} (h : it.encode = some line)
    (rest : Bytes) :
    (it.Loadable → loadLines (scanLines (line ++ rest)) =
      (loadLines (scanLines rest)).map (it.stored :: ·)) ∧
    (¬ it.Loadable → loadLines (scanLines (line ++ rest)) = none) := by
  obtain ⟨ms, hms, rfl, hnewline, htrim, hne⟩ := encode_eq_some h
  have hlines : scanLines ((Json.obj ms).print ++ [10] ++ rest) =
      (Json.obj ms).print :: scanLines rest := by
    rw [List.append_assoc]
    exact scanLines_cons hnewline rest
  rw [hlines, loadLines, htrim, if_neg hne]
  constructor
  · rintro ⟨hrequest, hresponse, hfits⟩
    have hlen := hfits _ h
    rw [List.length_append, List.length_singleton] at hlen
    rw [if_neg (by omega), unmarshal_print hms hrequest hresponse]
    cases loadLines (scanLines rest) <;> rfl
  · intro hnot
    split
    · rfl
    · rename_i hlen
      have hdeep : ¬ (BodyFits (maxNestingDepth - 1) it.requestBody ∧
          BodyFits (maxNestingDepth - 1) it.responseBody) := by
        rintro ⟨hrequest, hresponse⟩
        refine hnot ⟨hrequest, hresponse, fun line hline => ?_⟩
        rw [h] at hline
        cases hline
        rw [List.length_append, List.length_singleton]
        omega
      rw [unmarshal_eq_none hms hdeep]

variable {its : List Interaction} {lines : List Bytes}

/-- The lines of interactions are read back if all of them can be. -/
theorem loadLines_flatten (h : its.mapM Interaction.encode = some lines) :
    ((∀ it ∈ its, it.Loadable) →
      loadLines (scanLines lines.flatten) = some (its.map Interaction.stored)) ∧
    (¬ (∀ it ∈ its, it.Loadable) → loadLines (scanLines lines.flatten) = none) := by
  induction its generalizing lines with
  | nil =>
    cases h
    exact ⟨fun _ => rfl, fun hnot => absurd (by simp) hnot⟩
  | cons it its ih =>
    rw [List.mapM_cons] at h
    obtain ⟨line, hline, h⟩ := Option.bind_eq_some_iff.mp h
    obtain ⟨lines', hlines, h⟩ := Option.bind_eq_some_iff.mp h
    cases h
    rw [List.flatten_cons, List.forall_mem_cons]
    by_cases hit : it.Loadable
    · rw [(loadLines_encode hline _).1 hit]
      refine ⟨fun hall => ?_, fun hnot => ?_⟩
      · rw [(ih hlines).1 hall.2]
        rfl
      · rw [(ih hlines).2 fun hall => hnot ⟨hit, hall⟩]
        rfl
    · exact ⟨fun hall => absurd hall.1 hit, fun _ => (loadLines_encode hline _).2 hit⟩

theorem length_lt_of_loadLines {ls : List Bytes} (h : loadLines ls = some its) :
    ∀ l ∈ ls, l.length < maxCassetteLine := by
  induction ls generalizing its with
  | nil => simp
  | cons l ls ih =>
    rw [loadLines] at h
    split at h
    · cases h
    · rename_i hlen
      have hls : ∃ its', loadLines ls = some its' := by
        split at h
        · exact ⟨its, h⟩
        · split at h
          · exact ⟨_, ‹_›⟩
          · cases h
      obtain ⟨its', hits⟩ := hls
      intro x hx
      rcases List.mem_cons.mp hx with rfl | hx
      · omega
      · exact ih hits x hx

variable {fsOk : Bool} {content : Bytes}

theorem writeCassette_eq_some (h : writeCassette fsOk its = some content) :
    ∃ lines, its.mapM Interaction.encode = some lines ∧ content = lines.flatten := by
  unfold writeCassette at h
  split at h
  · obtain ⟨lines, hlines, rfl⟩ := map_eq_some_iff.mp h
    exact ⟨lines, hlines, rfl⟩
  · cases h

theorem writeCassette_isSome (h : ∀ it ∈ its, it.encode.isSome = true) :
    ∃ content, writeCassette true its = some content := by
  obtain ⟨lines, hlines⟩ := List.exists_mapM_eq_some h
  exact ⟨lines.flatten, by rw [writeCassette, if_pos rfl, hlines, map_some]⟩

/-- The file of interactions is loaded as what was stored if all of them can be read back. -/
theorem load_writeCassette (h : writeCassette fsOk its = some content) (path : Bytes) :
    ((∀ it ∈ its, it.Loadable) → Cassette.load path (some content) =
      some ((its.map Interaction.stored).foldl Cassette.add (.new path))) ∧
    (¬ (∀ it ∈ its, it.Loadable) → Cassette.load path (some content) = none) := by
  obtain ⟨lines, hlines, rfl⟩ := writeCassette_eq_some h
  obtain ⟨hall, hnot⟩ := loadLines_flatten hlines
  exact ⟨fun hload => by rw [Cassette.load, hall hload, map_some],
    fun hload => by rw [Cassette.load, hnot hload, Option.map_none]⟩

end MockAgents
