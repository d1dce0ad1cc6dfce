import MockAgents.Recording.ImportVCR
import MockAgents.Spec.RecordReplay

/-!
# Imported cassettes are readable

The interactions that `ImportVCR` returns are appended to an empty cassette, which writes
its file, and the file is loaded. This module says for which vcrpy cassettes the load gives
the interactions back.

A body that is no JSON is stored as a Go string literal. Not every Go literal is JSON, and
the encoder rejects the whole file if one is not. The cap on a decompressed body says
nothing about the line that it ends up in.
-/

namespace MockAgents

open Bytes (ofString isUtf8 hexDigit segs)
open List (length_append length_cons map_cons map_nil sum_cons sum_nil)

open Cassette (prepare flush)

/-! ## Reading back -/

namespace Interaction

/-- The same interaction, with bodies that are the same as JSON. -/
structure Same (a b : Interaction) : Prop where
  recordedAt : a.recordedAt = b.recordedAt
  hash : a.hash = b.hash
  method : a.method = b.method
  path : a.path = b.path
  requestHeaders : a.requestHeaders = b.requestHeaders
  requestBody : SameBody a.requestBody b.requestBody
  responseStatus : a.responseStatus = b.responseStatus
  responseHeaders : a.responseHeaders = b.responseHeaders
  responseBody : SameBody a.responseBody b.responseBody
  streaming : a.streaming = b.streaming
  streamEvents : a.streamEvents = b.streamEvents

end Interaction

/-- `AppendAll` to an empty cassette with a path succeeds, no line of the file is too long,
    and `Load` returns the interactions. -/
def ReadsBack (sha256 : Bytes → Bytes) (now : Time) (path : Bytes) (file : Option Bytes)
    (its : List Interaction) : Prop :=
  ∃ content, ((Cassette.new path).appendAll sha256 now true file its).2 = (some content, true) ∧
    (∀ line ∈ scanLines content, line.length ≤ maxCassetteLine) ∧
    ∃ c, Cassette.load path (some content) = some c ∧
      List.Forall₂ Interaction.Same
        ((Cassette.new path).appendAll sha256 now true file its).1.interactions c.interactions

section ReadsBack

variable {sha256 : Bytes → Bytes} {now : Time} {path : Bytes} {its : List Interaction}

theorem appendAll_new_interactions (file : Option Bytes) :
    ((Cassette.new path).appendAll sha256 now true file its).1.interactions =
      its.map (prepare sha256 now) :=
  Cassette.interactions_addAll (.new path) sha256 now its

theorem appendAll_new_eq_iff (hpath : path ≠ []) (file : Option Bytes) (content : Bytes) :
    ((Cassette.new path).appendAll sha256 now true file its).2 = (some content, true) ↔
      writeCassette true (its.map (prepare sha256 now)) = some content := by
  have hsnd : ((Cassette.new path).appendAll sha256 now true file its).2 =
      flush true path file (its.map (prepare sha256 now)) := by
    show flush true ((Cassette.new path).addAll sha256 now its).path file
      ((Cassette.new path).addAll sha256 now its).interactions = _
    rw [Cassette.path_addAll, Cassette.interactions_addAll]
    rfl
  rw [hsnd, flush, if_neg hpath]
  cases writeCassette true (its.map (prepare sha256 now)) with
  | none => simp
  | some content' => simp

theorem readsBack_iff (hpath : path ≠ []) (file : Option Bytes) :
    ReadsBack sha256 now path file its ↔ ∀ it ∈ its,
      (prepare sha256 now it).Loadable ∧
        (prepare sha256 now it).Same (prepare sha256 now it).stored := by
  simp only [ReadsBack, appendAll_new_eq_iff hpath, appendAll_new_interactions]
  constructor
  · rintro ⟨content, hwrite, _, c, hload, hsame⟩
    have hloadable : ∀ p ∈ its.map (prepare sha256 now), p.Loadable := by
      by_contra hnot
      rw [(load_writeCassette hwrite path).2 hnot] at hload
      cases hload
    rw [(load_writeCassette hwrite path).1 hloadable] at hload
    cases hload
    rw [Cassette.interactions_foldl_add] at hsame
    have hstored := List.forall₂_same.mp (List.forall₂_map_right_iff.mp hsame)
    intro it hit
    exact ⟨hloadable _ (List.mem_map_of_mem hit), hstored _ (List.mem_map_of_mem hit)⟩
  · intro h
    have hloadable : ∀ p ∈ its.map (prepare sha256 now), p.Loadable := by
      intro p hp
      obtain ⟨it, hit, rfl⟩ := List.mem_map.mp hp
      exact (h it hit).1
    obtain ⟨content, hwrite⟩ := writeCassette_isSome fun p hp => (hloadable p hp).encode_isSome
    refine ⟨content, hwrite, fun line hline => ?_, _,
      (load_writeCassette hwrite path).1 hloadable, ?_⟩
    · obtain ⟨lines, hlines, rfl⟩ := writeCassette_eq_some hwrite
      exact (length_lt_of_loadLines ((loadLines_flatten hlines).1 hloadable) line hline).le
    · rw [Cassette.interactions_foldl_add]
      refine List.forall₂_map_right_iff.mpr (List.forall₂_same.mpr fun p hp => ?_)
      obtain ⟨it, hit, rfl⟩ := List.mem_map.mp hp
      exact (h it hit).2

end ReadsBack

/-! ## The line of an imported interaction -/

/-- The length of members in an object, each with its comma. -/
def membersSize (ms : List (Bytes × Json)) : Nat :=
  (ms.map fun m => m.1.length + m.2.print.length + 4).sum

theorem membersSize_append (ms ms' : List (Bytes × Json)) :
    membersSize (ms ++ ms') = membersSize ms + membersSize ms' := by
  rw [membersSize, List.map_append, List.sum_append]
  rfl

/-- The length of a string in JSON, without the quotes. -/
def textSize (s : Bytes) : Nat := (Json.quote true s).length

/-- The length of headers in a line, under a name of length `tag`. -/
def headersSize (tag : Nat) (h : StrMap) : Nat :=
  if h.entries = [] then 0
  else tag + 5 + (h.entries.map fun e => textSize e.1 + textSize e.2 + 6).sum

/-- The length of a body in a line, under a name of length `tag`. -/
def bodySize (tag : Nat) (body : Bytes) : Nat :=
  if body = [] then 0 else tag + 4 + ((Json.compact body).getD []).length

namespace Interaction

theorem membersSize_headers (f : Field) (h : StrMap) :
    membersSize (omitEmpty f h.entries.isEmpty (headersJson h)) = headersSize f.tag.length h := by
  unfold omitEmpty headersSize
  cases hentries : h.entries with
  | nil => rfl
  | cons e l =>
    have hne : (h.entries.map fun e => (Json.quote true e.1, strJson e.2)) ≠ [] := by
      simp [hentries]
    have hlen := Json.length_print_obj hne
    rw [List.map_map] at hlen
    have hsizes : (h.entries.map ((fun m : Bytes × Json => m.1.length + m.2.print.length + 4) ∘
        fun e => (Json.quote true e.1, strJson e.2))) =
        h.entries.map fun e => textSize e.1 + textSize e.2 + 6 := by
      refine List.map_congr_left fun e _ => ?_
      simp only [Function.comp_apply, strJson, Json.print, textSize, length_cons,
        length_append, List.length_nil]
      omega
    rw [hsizes] at hlen
    simp only [List.isEmpty_cons, membersSize, Bool.false_eq_true, if_false, map_cons,
      map_nil, sum_cons, sum_nil, reduceCtorEq, headersJson, hentries] at hlen ⊢
    omega

theorem membersSize_body {f : Field} {body : Bytes} {ms : List (Bytes × Json)}
    (h : bodyField f body = some ms) : membersSize ms = bodySize f.tag.length body := by
  unfold bodyField at h
  unfold bodySize
  split at h
  · rename_i hnil
    cases h
    rw [if_pos hnil]
    rfl
  · rename_i hne
    obtain ⟨u, hu, rfl⟩ := Option.map_eq_some_iff.mp h
    obtain ⟨t, ht, rfl⟩ := Option.map_eq_some_iff.mp hu
    rw [if_neg hne, Json.compact, ht]
    simp only [membersSize, map_cons, map_nil, sum_cons, sum_nil,
      Option.map_some, Option.getD_some]
    omega

theorem membersSize_front (it : Interaction) :
    membersSize [(Field.recordedAt.tag, .str it.recordedAt.format),
        (Field.hash.tag, strJson it.hash), (Field.method.tag, strJson it.method),
        (Field.path.tag, strJson it.path)] =
      49 + it.recordedAt.format.length + textSize it.hash + textSize it.method +
        textSize it.path := by
  have htags : Field.recordedAt.tag.length = 11 ∧ Field.hash.tag.length = 4 ∧
      Field.method.tag.length = 6 ∧ Field.path.tag.length = 4 := by decide
  simp only [membersSize, map_cons, map_nil, sum_cons, sum_nil, htags,
    strJson, Json.print, textSize, length_cons, length_append, List.length_nil]
  omega

theorem membersSize_status (it : Interaction) :
    membersSize [(Field.responseStatus.tag, .num (Decimal.intText it.responseStatus.toInt))] =
      19 + (Decimal.intText it.responseStatus.toInt).length := by
  have htag : Field.responseStatus.tag.length = 15 := by decide
  simp only [membersSize, map_cons, map_nil, sum_cons, sum_nil, htag,
    Json.print]
  omega

theorem length_encode {it : Interaction} (hstreaming : it.streaming = false)
    (hevents : it.streamEvents = []) {line : Bytes} (h : it.encode = some line) :
    line.length = 70 + it.recordedAt.format.length + textSize it.hash + textSize it.method +
      textSize it.path + (Decimal.intText it.responseStatus.toInt).length +
      headersSize 15 it.requestHeaders + bodySize 12 it.requestBody +
      headersSize 16 it.responseHeaders + bodySize 13 it.responseBody := by
  obtain ⟨ms, hms, rfl, -⟩ := encode_eq_some h
  unfold members at hms
  split at hms
  · rename_i request response hrequest hresponse
    cases hms
    have htags : Field.requestHeaders.tag.length = 15 ∧ Field.requestBody.tag.length = 12 ∧
        Field.responseHeaders.tag.length = 16 ∧ Field.responseBody.tag.length = 13 := by
      decide
    have hno : membersSize (omitEmpty .streaming (!it.streaming) (.bool it.streaming)) = 0 ∧
        membersSize (omitEmpty .streamEvents it.streamEvents.isEmpty
          (.arr (it.streamEvents.map eventJson))) = 0 := by
      rw [hstreaming, hevents]
      exact ⟨rfl, rfl⟩
    rw [length_append, Json.length_print_obj (by simp)]
    show membersSize _ + 1 + 1 = _
    simp only [membersSize_append, membersSize_front, membersSize_status, membersSize_headers,
      membersSize_body hrequest, membersSize_body hresponse, htags, hno]
    omega
  · cases hms

end Interaction

theorem textSize_hexEncode (b : Bytes) : textSize (Bytes.hexEncode b) = 2 * b.length := by
  have hdigit : ∀ n : Fin 16, (hexDigit n).toNat < 0x80 ∧
      (Json.quoteSeg true (.ascii (hexDigit n))).length = 1 := by decide
  have hcons : ∀ (n : Nat) (rest : Bytes), n < 16 →
      textSize (hexDigit n :: rest) = 1 + textSize rest := by
    intro n rest hn
    obtain ⟨hascii, hone⟩ := hdigit ⟨n, hn⟩
    rw [textSize, Json.quote, Bytes.segs_ascii hascii, List.flatMap_cons, length_append, hone]
    rfl
  induction b with
  | nil => rfl
  | cons x b ih =>
    have hx := x.toNat_lt
    show textSize (hexDigit (x.toNat / 16) :: hexDigit (x.toNat % 16) ::
      Bytes.hexEncode b) = _
    rw [hcons _ _ (by omega), hcons _ _ (by omega), length_cons]
    omega

/-! ## What can be stored -/

namespace VcrEnv

variable (env : VcrEnv)

/-- A body that a line can hold: none, JSON that leaves room for the object around it, or a
    text whose Go literal is JSON. -/
def BodyStorable (b : VcrBody) : Prop :=
  (b.present = false ∨ b.raw = []) ∨
    (∃ t, Json.parse b.raw = some t ∧ Json.Lit (Json.maxNestingDepth - 1) t) ∨
    (Json.valid b.raw = false ∧
      (segs b.raw).all (Strconv.isJsonQuotable env.isPrint) = true)

/-- The length of the line of an interaction that is kept. -/
def lineSize (now : Time) (vi : VcrInteraction VcrBody) (path : Bytes) : Nat :=
  134 + now.format.length + textSize (env.methodOf vi) + textSize path +
    (Decimal.intText (statusOr vi.response.statusCode 200).toInt).length +
    headersSize 15 (env.flattenHeaders vi.request.headers) +
    bodySize 12 (env.bodyToRawMessage vi.request.body) +
    headersSize 16 (env.flattenHeaders vi.response.headers) +
    bodySize 13 (env.bodyToRawMessage vi.response.body)

structure Kept (all : Bool) (vi : VcrInteraction VcrBody) (path : Bytes) : Prop where
  uri : env.uriToPath vi.request.uri = .ok path
  requestDecoded : vi.request.body.err = none
  responseDecoded : vi.response.body.err = none
  selected : all = true ∨ (env.methodOf vi = ofString "POST" ∧ path ∈ llmPaths)
  requestJson : vi.request.body.present = true → Json.valid vi.request.body.raw = true

/-- The interaction can be stored and read back as it is. -/
structure Storable (now : Time) (vi : VcrInteraction VcrBody) (path : Bytes) : Prop where
  pathUtf8 : isUtf8 path = true
  requestHeaders : (env.flattenHeaders vi.request.headers).IsUtf8
  responseHeaders : (env.flattenHeaders vi.response.headers).IsUtf8
  requestBody : env.BodyStorable vi.request.body
  responseBody : env.BodyStorable vi.response.body
  size : env.lineSize now vi path ≤ maxCassetteLine

theorem importOne_eq_ok_iff (all : Bool) (vi : VcrInteraction VcrBody) (it : Interaction) :
    env.importOne all vi = .ok it ↔
      ∃ path, env.Kept all vi path ∧ it = env.interactionOf vi path := by
  constructor
  · intro h
    unfold importOne at h
    split at h
    · cases h
    · rename_i path huri
      split at h
      · cases h
      · cases h
      · rename_i hrequest hresponse
        split at h
        · cases h
        · rename_i hselected
          split at h
          · cases h
          · rename_i hjson
            refine ⟨path, ⟨huri, hrequest, hresponse, ?_, ?_⟩, (Except.ok.inj h).symm⟩
            · cases all with
              | true => exact .inl rfl
              | false => exact .inr (by simpa using hselected)
            · simpa using hjson
  · rintro ⟨path, hkept, rfl⟩
    have hselected : (!all && (env.methodOf vi != ofString "POST" ||
        !llmPaths.contains path)) = false := by
      rcases hkept.selected with hall | ⟨hmethod, hpath⟩
      · simp [hall]
      · simp [hmethod, hpath]
    have hjson : (vi.request.body.present && !Json.valid vi.request.body.raw) = false := by
      have := hkept.requestJson
      cases hpresent : vi.request.body.present <;> simp_all
    simp only [importOne, hkept.uri, hkept.requestDecoded, hkept.responseDecoded, hselected, hjson,
      Bool.false_eq_true, if_false]

theorem bodyFits_bodyToRawMessage_iff (b : VcrBody) :
    Interaction.BodyFits (Json.maxNestingDepth - 1) (env.bodyToRawMessage b) ↔
      env.BodyStorable b := by
  unfold bodyToRawMessage BodyStorable
  split
  · rename_i habsent
    have habsent : b.present = false ∨ b.raw = [] := by simpa using habsent
    exact iff_of_true (.inl rfl) (.inl habsent)
  · rename_i hpresent
    obtain ⟨hpresent, hne⟩ : b.present = true ∧ b.raw ≠ [] := by simpa using hpresent
    split
    · rename_i hvalid
      simp only [Interaction.BodyFits, hpresent, hne, hvalid, false_or, Bool.true_eq_false,
        false_and, or_false]
    · rename_i hvalid
      rw [Bool.not_eq_true] at hvalid
      have hparse : Json.parse b.raw = none := by simpa [Json.valid] using hvalid
      have hquote : Strconv.quote env.isPrint b.raw ≠ [] := by simp [Strconv.quote]
      rw [Interaction.BodyFits, Strconv.parse_quote]
      split
      · rename_i hall
        have hlit : Json.Lit (Json.maxNestingDepth - 1)
            (.str (Strconv.quoteText env.isPrint b.raw)) :=
          .str _ ((Strconv.isRaw_quoteText_iff _ _).mpr hall)
        exact iff_of_true (.inr ⟨_, rfl, hlit⟩) (.inr (.inr ⟨hvalid, hall⟩))
      · rename_i hall
        simp [hquote, hpresent, hne, hparse, hall]

theorem prepare_interactionOf (sha256 : Bytes → Bytes) (now : Time)
    (vi : VcrInteraction VcrBody) (path : Bytes) :
    prepare sha256 now (env.interactionOf vi path) =
      { env.interactionOf vi path with
        hash := hashRequest sha256 (env.methodOf vi) path (env.bodyToRawMessage vi.request.body)
        recordedAt := now } := rfl

theorem length_encode_prepare {sha256 : Bytes → Bytes} (hsha : ∀ b, (sha256 b).length = 32)
    (now : Time) (vi : VcrInteraction VcrBody) (path : Bytes) {line : Bytes}
    (h : (prepare sha256 now (env.interactionOf vi path)).encode = some line) :
    line.length = env.lineSize now vi path := by
  rw [Interaction.length_encode rfl rfl h, prepare_interactionOf, lineSize]
  simp only [hashRequest, textSize_hexEncode, hsha, interactionOf]
  omega

/-- An imported interaction is read back as it is iff it can be stored. -/
theorem loadable_and_same_iff {sha256 : Bytes → Bytes} (hsha : ∀ b, (sha256 b).length = 32)
    (now : Time) (vi : VcrInteraction VcrBody) (path : Bytes) :
    ((prepare sha256 now (env.interactionOf vi path)).Loadable ∧
      (prepare sha256 now (env.interactionOf vi path)).Same
        (prepare sha256 now (env.interactionOf vi path)).stored) ↔
      env.Storable now vi path := by
  constructor
  · rintro ⟨hload, hsame⟩
    obtain ⟨line, hline⟩ := Option.isSome_iff_exists.mp hload.encode_isSome
    have hlen := hload.2.2 line hline
    rw [env.length_encode_prepare hsha now vi path hline] at hlen
    exact
      { pathUtf8 := (Bytes.toValid_eq_self_iff path).mp hsame.path.symm
        requestHeaders := (StrMap.stored_eq_self_iff _).mp hsame.requestHeaders
        responseHeaders := (StrMap.stored_eq_self_iff _).mp hsame.responseHeaders
        requestBody := (env.bodyFits_bodyToRawMessage_iff _).mp hload.1
        responseBody := (env.bodyFits_bodyToRawMessage_iff _).mp hload.2.1
        size := hlen }
  · intro h
    have hrequest := (env.bodyFits_bodyToRawMessage_iff _).mpr h.requestBody
    have hresponse := (env.bodyFits_bodyToRawMessage_iff _).mpr h.responseBody
    have hmethod : isUtf8 (env.methodOf vi) = true := Strings.isUtf8_toUpper _ _
    -- the other fields are always stored as they are
    refine ⟨⟨hrequest, hresponse, fun line hline => ?_⟩, ?_⟩
    · rw [env.length_encode_prepare hsha now vi path hline]
      exact h.size
    · exact
        { recordedAt := rfl
          hash := (Bytes.toValid_of_isUtf8 (isUtf8_hexEncode _)).symm
          method := (Bytes.toValid_of_isUtf8 hmethod).symm
          path := (Bytes.toValid_of_isUtf8 h.pathUtf8).symm
          requestHeaders := (StrMap.stored_eq_self_iff _).mpr h.requestHeaders
          requestBody := Exchange.sameBody_compact hrequest
          responseStatus := rfl
          responseHeaders := (StrMap.stored_eq_self_iff _).mpr h.responseHeaders
          responseBody := Exchange.sameBody_compact hresponse
          streaming := rfl
          streamEvents := rfl }

/-! ## The loop -/

section Loop

variable (all : Bool)

/-- Each round counts its interaction once, and appends it if it is imported. -/
theorem importStep_eq (st : ImportState) (vi : VcrInteraction VcrBody × Nat) :
    (env.importStep all st vi).res.imported + (env.importStep all st vi).res.skipped =
        st.res.imported + st.res.skipped + 1 ∧
      (env.importStep all st vi).out = st.out ++ (env.importOne all vi.1).toOption.toList := by
  unfold importStep
  split
  · rename_i it hok
    rw [hok]
    exact ⟨Nat.add_right_comm _ _ _, rfl⟩
  · rename_i reason herr
    rw [herr]
    exact ⟨rfl, (List.append_nil _).symm⟩

theorem importAll_eq (items : List (VcrInteraction VcrBody)) :
    (env.importAll all items).res.imported + (env.importAll all items).res.skipped =
        items.length ∧
      (env.importAll all items).out =
        items.filterMap fun vi => (env.importOne all vi).toOption := by
  -- over the rounds so far, which start at any index
  suffices ∀ (n : Nat) (st : ImportState),
      ((items.zipIdx n).foldl (env.importStep all) st).res.imported +
          ((items.zipIdx n).foldl (env.importStep all) st).res.skipped =
        st.res.imported + st.res.skipped + items.length ∧
      ((items.zipIdx n).foldl (env.importStep all) st).out =
        st.out ++ items.filterMap fun vi => (env.importOne all vi).toOption by
    obtain ⟨hsum, hout⟩ := this 0 ⟨[], ⟨0, 0, []⟩⟩
    exact ⟨hsum.trans (Nat.zero_add _), hout⟩
  induction items with
  | nil => exact fun n st => ⟨rfl, (List.append_nil _).symm⟩
  | cons vi items ih =>
    intro n st
    obtain ⟨hsum, hout⟩ := env.importStep_eq all st (vi, n)
    obtain ⟨hsum', hout'⟩ := ih (n + 1) (env.importStep all st (vi, n))
    rw [List.zipIdx_cons, List.foldl_cons]
    constructor
    · rw [hsum', length_cons]
      omega
    · rw [hout', hout, List.filterMap_cons]
      cases (env.importOne all vi).toOption with
      | none => simp
      | some it => simp

end Loop

/-- The interactions of the file are counted, and those that are imported are read back from
    the file that `AppendAll` writes, iff each interaction that is kept can be stored. -/
theorem import_readable_iff {all : Bool} {cassette : Bytes} {vis : List (VcrInteraction VcrBody)}
    (hitems : env.items cassette = .ok vis) {out : List Interaction} {res : ImportResult}
    (himport : env.importVCR all cassette = .ok (out, res)) {sha256 : Bytes → Bytes}
    (hsha : ∀ b, (sha256 b).length = 32) (now : Time) {target : Bytes} (htarget : target ≠ [])
    (file : Option Bytes) :
    (res.imported + res.skipped = vis.length ∧ ReadsBack sha256 now target file out) ↔
      ∀ vi ∈ vis, ∀ path, env.Kept all vi path → env.Storable now vi path := by
  rw [importVCR, hitems] at himport
  obtain ⟨rfl, rfl⟩ := Prod.mk.inj (Except.ok.inj himport)
  obtain ⟨hsum, hout⟩ := env.importAll_eq all vis
  rw [readsBack_iff htarget, hout]
  constructor
  · rintro ⟨_, hread⟩ vi hvi path hkept
    have hone : env.importOne all vi = .ok (env.interactionOf vi path) :=
      (env.importOne_eq_ok_iff all vi _).mpr ⟨path, hkept, rfl⟩
    refine (env.loadable_and_same_iff hsha now vi path).mp (hread _ ?_)
    exact List.mem_filterMap.mpr ⟨vi, hvi, by rw [hone]; rfl⟩
  · intro h
    refine ⟨hsum, fun it hit => ?_⟩
    obtain ⟨vi, hvi, hone⟩ := List.mem_filterMap.mp hit
    have hok : env.importOne all vi = .ok it := by
      cases hresult : env.importOne all vi with
      | ok it' =>
        rw [hresult] at hone
        exact congrArg _ (Option.some.inj hone)
      | error reason =>
        rw [hresult] at hone
        cases hone
    obtain ⟨path, hkept, rfl⟩ := (env.importOne_eq_ok_iff all vi it).mp hok
    exact (env.loadable_and_same_iff hsha now vi path).mpr (h vi hvi path hkept)

end VcrEnv

/-! ## Two cassettes -/

/-- An environment for cassettes with absolute URLs, whose mappings have string values. -/
def urlEnv (vis : List (VcrInteraction (Option (BodyNode Bytes)))) : VcrEnv where
  Value := Bytes
  decode _ := .ok vis
  asString := some
  marshal _ := .error (ofString "json: unsupported value")
  base64 _ := .error (ofString "illegal base64 data at input byte 0")
  gzip _ := .error (ofString "gzip: invalid header")
  urlPath uri :=
    let rest := (Bytes.cut (ofString "://") uri).elim uri Prod.snd
    .ok ((rest.dropWhile (· != 47)).takeWhile (· != 63))
  upper := id
  lower := id
  isPrint _ := true
  order := .stored

def vcrExchange (method uri : String) (request : Bytes) (response : Bytes) :
    VcrInteraction (Option (BodyNode Bytes)) where
  request :=
    { method := ofString method
      uri := ofString uri
      body := some (.scalar false request)
      headers := ∅ }
  response :=
    { statusCode := 200
      headers := (∅ : GoMap Bytes (List Bytes)).insert (ofString "Content-Type")
        [ofString "application/json"]
      body := some (.mapping (.ok ((∅ : GoMap Bytes Bytes).insert (ofString "string")
        response))) }

/-- A chat, an answer that is no JSON, and a request to no known path. -/
def chatCassette : List (VcrInteraction (Option (BodyNode Bytes))) :=
  [vcrExchange "POST" "https://api.openai.com/v1/chat/completions?beta=1"
      (ofString "\x7b\"model\":\"gpt-4o\"\x7d")
      (ofString "\x7b\"id\": \"chatcmpl-1\"\x7d"),
    vcrExchange "post" "https://api.openai.com/v1/embeddings" (ofString "[]")
      (ofString "upstream timeout\n"),
    vcrExchange "GET" "https://api.openai.com/v1/models" (ofString "[]") []]

theorem VcrEnv.bodyStorable_of_isSome (env : VcrEnv) {b : VcrBody}
    (h : (b.present = false ∨ b.raw = []) ∨
      (Json.valid b.raw = true ∧ (Json.parseValue 9999 (Json.skipWs b.raw)).isSome = true) ∨
      (Json.valid b.raw = false ∧
        (segs b.raw).all (Strconv.isJsonQuotable env.isPrint) = true)) :
    env.BodyStorable b := by
  refine h.imp_right (Or.imp_left fun ⟨hvalid, hdepth⟩ => ?_)
  obtain ⟨t, ht⟩ := Option.isSome_iff_exists.mp hvalid
  exact ⟨t, ht, Json.lit_of_parseValue_isSome (by decide) ht hdepth⟩

theorem chatCassette_readable :
    ∃ out res, (urlEnv chatCassette).importVCR false [] = .ok (out, res) ∧
      res.imported + res.skipped = 3 ∧ ReadsBack zeroHash newYear tapePath none out := by
  let env := urlEnv chatCassette
  have hcheck : ∀ vi ∈ chatCassette.map env.unmarshalInteraction,
      ∀ path ∈ (env.uriToPath vi.request.uri).toOption, isUtf8 path = true ∧
        (∀ e ∈ (env.flattenHeaders vi.request.headers).entries,
          isUtf8 e.1 = true ∧ isUtf8 e.2 = true) ∧
        (∀ e ∈ (env.flattenHeaders vi.response.headers).entries,
          isUtf8 e.1 = true ∧ isUtf8 e.2 = true) ∧
        (∀ b ∈ [vi.request.body, vi.response.body], (b.present = false ∨ b.raw = []) ∨
          (Json.valid b.raw = true ∧ (Json.parseValue 9999 (Json.skipWs b.raw)).isSome = true) ∨
          (Json.valid b.raw = false ∧
            (segs b.raw).all (Strconv.isJsonQuotable env.isPrint) = true)) ∧
        env.lineSize newYear vi path ≤ maxCassetteLine := by
    decide +kernel
  have hitems : env.items [] = .ok (chatCassette.map env.unmarshalInteraction) := rfl
  have himport : env.importVCR false [] = .ok (_, _) := rfl
  have hsha : ∀ b, (zeroHash b).length = 32 := fun _ => rfl
  have htarget : tapePath ≠ [] := by decide
  refine ⟨_, _, himport, (env.import_readable_iff hitems himport hsha newYear htarget none).mpr ?_⟩
  intro vi hvi path hkept
  obtain ⟨hpath, hrequest, hresponse, hbodies, hsize⟩ :=
    hcheck vi hvi path (by rw [hkept.uri]; rfl)
  exact
    { pathUtf8 := hpath
      requestHeaders := hrequest
      responseHeaders := hresponse
      requestBody := env.bodyStorable_of_isSome (hbodies _ (by simp))
      responseBody := env.bodyStorable_of_isSome (hbodies _ (by simp))
      size := hsize }

/-- The bytes of a gzip stream: a compressed response. -/
def gzipBytes : Bytes :=
  [31, 139, 8, 0, 0, 0, 0, 0, 2, 255, 171, 86, 74, 206, 200, 207, 76, 78, 45, 86, 178, 138, 174, 86,
    202, 77, 45, 46, 78, 76, 79, 85, 178, 170, 86, 74, 206, 207, 43, 73, 205, 43, 81, 178, 82, 74,
    43, 202, 207, 85, 72, 175, 202, 44, 80, 170, 173, 141, 173, 5, 0, 113, 17, 43, 40, 49, 0, 0, 0]

/-- A compressed response as vcrpy stores it, under `string` with the tag `!!binary`. -/
def gzipCassette : List (VcrInteraction (Option (BodyNode Bytes))) :=
  [vcrExchange "POST" "https://api.openai.com/v1/chat/completions"
    (ofString "\x7b\"model\":\"gpt-4o\"\x7d") gzipBytes]

/-- The interaction is imported, and then `AppendAll` fails: the Go literal of its body has
    `\x` escapes. -/
theorem gzipCassette_not_readable :
    ∃ out res, (urlEnv gzipCassette).importVCR false [] = .ok (out, res) ∧ res.imported = 1 ∧
      ((Cassette.new tapePath).appendAll zeroHash newYear true none out).2 = (none, false) ∧
      ¬ ReadsBack zeroHash newYear tapePath none out := by
  let out := ((urlEnv gzipCassette).importAll false
    (gzipCassette.map (urlEnv gzipCassette).unmarshalInteraction)).out
  have happend : ((Cassette.new tapePath).appendAll zeroHash newYear true none out).2 =
      (none, false) := by
    decide
  refine ⟨out, _, rfl, by decide +kernel, happend, ?_⟩
  rintro ⟨content, hcontent, -⟩
  rw [happend] at hcontent
  cases hcontent

end MockAgents
