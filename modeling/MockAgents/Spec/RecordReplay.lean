import MockAgents.Recording.Replay
import MockAgents.Spec.CassetteFile

/-!
# Replay undoes record

A sequence of exchanges is recorded by a proxy into the file of a cassette, the file is
loaded, and the same requests are replayed. Each request is answered with the status and
the body of its own exchange: the `k`-th request with a hash is answered with the `k`-th
interaction that was recorded with it.
-/

namespace MockAgents

open Json (compact maxNestingDepth joinComma nested printMembers)
open Bytes (isUtf8 ofString)
open Interaction (bodyField encode strJson)

/-! ## Recording a sequence of exchanges -/

/-- A request, what the upstream server answered, and when. -/
structure Exchange where
  request : Request
  upstream : Upstream
  env : Env

/-- The interaction that a response that is no stream leaves on the tape. -/
def Exchange.recorded (e : Exchange) (sha256 : Bytes → Bytes) : Interaction :=
  Cassette.prepare sha256 e.env.now
    { Proxy.interaction sha256 e.request e.upstream with responseBody := e.upstream.body }

/-- The tape after some exchanges, one after another. -/
def Proxy.recordAll (p : Proxy) (sha256 : Bytes → Bytes) (tape : Tape) (es : List Exchange) :
    Tape :=
  es.foldl (fun tape e => (p.serveHTTP sha256 e.env tape e.request (some e.upstream)).1) tape

/-- The exchange is recorded: its response is no stream and arrives whole, it is not skipped,
    the file system works, and the bodies are empty or JSON. -/
structure Exchange.Recorded (e : Exchange) (p : Proxy) : Prop where
  notSSE : isSSE (e.upstream.header.get (ofString "Content-Type")) = false
  complete : e.upstream.complete = true
  notSkipped : p.skipRecording e.upstream.status = false
  fsOk : e.env.fsOk = true
  request : Interaction.BodyFits Json.maxNestingDepth e.request.body
  response : Interaction.BodyFits Json.maxNestingDepth e.upstream.body

variable {p : Proxy}

/-- A cassette whose interactions can be written still can be with the one recorded. -/
theorem Exchange.Recorded.encode_isSome {e : Exchange} (h : e.Recorded p) (sha256 : Bytes → Bytes)
    {its : List Interaction} (hits : ∀ it ∈ its, it.encode.isSome = true) :
    ∀ it ∈ its ++ [e.recorded sha256], it.encode.isSome = true :=
  List.forall_mem_append.mpr ⟨hits, List.forall_mem_singleton.mpr
    ((Interaction.encode_isSome_iff _).mpr ⟨h.request, h.response⟩)⟩

theorem Proxy.serveHTTP_recorded (hp : p.redactor = none) (sha256 : Bytes → Bytes) {tape : Tape}
    (hpath : tape.cassette.path ≠ [])
    (htape : ∀ it ∈ tape.cassette.interactions, it.encode.isSome = true) {e : Exchange}
    (he : e.Recorded p) :
    ∃ content, writeCassette true (tape.cassette.interactions ++ [e.recorded sha256]) =
        some content ∧
      (p.serveHTTP sha256 e.env tape e.request (some e.upstream)).1 =
        ⟨tape.cassette.add (e.recorded sha256), some content⟩ := by
  obtain ⟨content, hwrite⟩ := writeCassette_isSome (he.encode_isSome sha256 htape)
  have hflush : Cassette.flush e.env.fsOk tape.cassette.path tape.file
      (tape.cassette.interactions ++ [e.recorded sha256]) = (some content, true) := by
    rw [Cassette.flush, if_neg hpath, he.fsOk, hwrite]
  refine ⟨content, hwrite, ?_⟩
  simp only [serveHTTP, he.notSSE, Bool.false_eq_true, if_false, he.complete, Bool.not_true, record,
    he.notSkipped, hp, Cassette.append, Cassette.appendAll, Cassette.addAll, List.map_cons,
    List.map_nil, List.foldl_cons, List.foldl_nil]
  show Tape.mk _ (Cassette.flush e.env.fsOk tape.cassette.path tape.file
    (tape.cassette.interactions ++ [e.recorded sha256])).1 = _
  rw [hflush]
  rfl

/-- The tape after some exchanges: the cassette has their interactions, and the file what
    `writeCassette` makes of them. -/
theorem Proxy.recordAll_eq (hp : p.redactor = none) (sha256 : Bytes → Bytes) {es : List Exchange}
    (hes : ∀ e ∈ es, e.Recorded p) (tape : Tape) (hpath : tape.cassette.path ≠ [])
    (htape : ∀ it ∈ tape.cassette.interactions, it.encode.isSome = true) (hne : es ≠ []) :
    ∃ content, (p.recordAll sha256 tape es).file = some content ∧
      writeCassette true (tape.cassette.interactions ++ es.map (Exchange.recorded · sha256)) =
        some content := by
  induction es generalizing tape with
  | nil => exact absurd rfl hne
  | cons e es ih =>
    have he := hes e (by simp)
    obtain ⟨content, hwrite, hstep⟩ :=
      serveHTTP_recorded hp sha256 hpath htape he
    rw [recordAll, List.foldl_cons, hstep]
    cases es with
    | nil => exact ⟨content, rfl, hwrite⟩
    | cons e' es =>
      have htape' : ∀ it ∈ (tape.cassette.add (e.recorded sha256)).interactions,
          it.encode.isSome = true := he.encode_isSome sha256 htape
      obtain ⟨content', hfile, hwrite'⟩ := ih (fun x hx => hes x (by simp [hx]))
        ⟨tape.cassette.add (e.recorded sha256), some content⟩ hpath htape' (by simp)
      refine ⟨content', hfile, ?_⟩
      simpa [Cassette.add] using hwrite'

/-! ## Replaying a sequence of requests -/

namespace Replay

/-- The answers to some requests, one after another. -/
def serveAll (sha256 : Bytes → Bytes) (c : Cassette) : Replay → List Request → List Replayed
  | _, [] => []
  | rp, r :: rs =>
    let (rp, reply) := rp.serveHTTP sha256 c r
    reply :: serveAll sha256 c rp rs

variable {rp : Replay}

theorem find_of_no_matcher (h : rp.matcher = none) (sha256 : Bytes → Bytes) (c : Cassette)
    (r : Request) : rp.find sha256 c r = rp.next c (hashRequest sha256 r.method r.path r.body) := by
  rw [find, h]

theorem next_eq {c : Cassette} {hash : Bytes} {front back : List Interaction} {it : Interaction}
    (hseq : c.lookupSequence hash = front ++ it :: back)
    (hcursor : (rp.cursor.lookup hash).getD 0 = front.length) :
    rp.next c hash =
      ({ rp with cursor := rp.cursor.insert hash (front.length + 1) }, some it) := by
  have hlen : ¬ (front ++ it :: back).length ≤ front.length := by simp
  have hget : (front ++ it :: back)[front.length]? = some it := by simp
  rw [next, advance, hseq, if_neg (by simp), hcursor, if_neg hlen, hget]

/-- Requests with the hashes of the interactions of a cassette are answered with these, in
    their order. `front` are the interactions that were served before. -/
theorem serveAll_eq {sha256 : Bytes → Bytes} {c : Cassette} (front : List Interaction)
    {its : List Interaction}
    (hseq : ∀ hash, c.lookupSequence hash = (front ++ its).filter fun it => it.hash = hash)
    (hmatcher : rp.matcher = none) (hcursor : ∀ hash, (rp.cursor.lookup hash).getD 0 =
      (front.filter fun it => it.hash = hash).length) {rs : List Request}
    (hrs : List.Forall₂ (fun r it => hashRequest sha256 r.method r.path r.body = it.hash) rs its) :
    serveAll sha256 c rp rs = its.map replyOf := by
  induction hrs generalizing front rp with
  | nil => rfl
  | @cons r it rs its hhash _ ih =>
    -- the state after this request, in which the interaction that was served joins `front`
    let served : Replay := { rp with
      cursor := rp.cursor.insert it.hash ((front.filter fun x => x.hash = it.hash).length + 1) }
    have hnext : rp.next c it.hash = (served, some it) := by
      have hfilter : c.lookupSequence it.hash = (front.filter fun x => x.hash = it.hash) ++
          it :: its.filter fun x => x.hash = it.hash := by
        rw [hseq, List.filter_append, List.filter_cons_of_pos (by simp)]
      exact next_eq hfilter (hcursor it.hash)
    have hserve : rp.serveHTTP sha256 c r = (served, replyOf it) := by
      rw [serveHTTP, find_of_no_matcher hmatcher, hhash, hnext]
    have hrest : serveAll sha256 c served rs = its.map replyOf := by
      refine ih (front ++ [it]) (fun hash => ?_) hmatcher (fun hash => ?_)
      · rw [hseq, List.append_assoc, List.singleton_append]
      · show ((rp.cursor.insert it.hash _).lookup hash).getD 0 = _
        rw [GoMap.lookup_insert_eq]
        split
        · rename_i heq
          subst heq
          simp
        · rename_i hne
          have hne' : ¬ it.hash = hash := fun h => hne h.symm
          simp [hcursor, hne']
    simp [serveAll, hserve, hrest]

end Replay

/-! ## Each request gets its own answer -/

/-- Both bodies are empty, or they are JSON texts for the same value. -/
def SameBody (a b : Bytes) : Prop := (a = [] ∧ b = []) ∨ Json.Equiv a b

/-- The answer has the status and the body of the exchange. -/
def Exchange.AnsweredBy (e : Exchange) (reply : Replayed) : Prop :=
  ∃ headers body, reply = .hit e.upstream.status headers body ∧ SameBody e.upstream.body body

theorem isUtf8_hexEncode (b : Bytes) : isUtf8 (Bytes.hexEncode b) = true := by
  induction b with
  | nil => rfl
  | cons x b ih =>
    have hdigit : ∀ n : Fin 16, isUtf8 [Bytes.hexDigit n] = true := by decide
    have hx := x.toNat_lt
    have hhigh := hdigit ⟨x.toNat / 16, by omega⟩
    have hlow := hdigit ⟨x.toNat % 16, by omega⟩
    exact Bytes.isUtf8_append (Bytes.isUtf8_append hhigh hlow) ih

namespace Exchange

variable (e : Exchange) (sha256 : Bytes → Bytes)

theorem recorded_hash : (e.recorded sha256).hash =
    hashRequest sha256 e.request.method e.request.path e.request.body := by
  show (if hashRequest sha256 e.request.method e.request.path e.request.body = [] then _ else _) = _
  exact ite_self _

theorem stored_hash : (e.recorded sha256).stored.hash =
    hashRequest sha256 e.request.method e.request.path e.request.body := by
  rw [Interaction.stored, recorded_hash]
  exact Bytes.toValid_of_isUtf8 (isUtf8_hexEncode _)

theorem sameBody_compact {body : Bytes} {d : Nat} (h : Interaction.BodyFits d body) :
    SameBody body ((compact body).getD []) := by
  obtain rfl | ⟨t, ht, _⟩ := h
  · exact .inl ⟨rfl, rfl⟩
  · have hcompact : compact body = some (t.mapStr Json.escapeRaw).print := by
      rw [compact, ht, Option.map_some]
    rw [hcompact]
    exact .inr (Json.parse_compact hcompact)

theorem answeredBy_stored {d : Nat} (h : Interaction.BodyFits d e.upstream.body) :
    e.AnsweredBy (Replay.replyOf (e.recorded sha256).stored) := by
  have hstatus : e.upstream.status ≠ 0 := by
    intro hzero
    have := e.upstream.statusValid.1
    rw [hzero] at this
    exact absurd this (by decide)
  refine ⟨(e.recorded sha256).stored.responseHeaders, (compact e.upstream.body).getD [], ?_,
    sameBody_compact h⟩
  show Replayed.hit (if e.upstream.status = 0 then 200 else e.upstream.status) _ _ = _
  rw [if_neg hstatus]
  rfl

end Exchange

/-! ## Sample exchanges -/

/-- A proxy that records everything as it is. -/
def plainProxy : Proxy := ⟨none, false⟩

def zeroHash : Bytes → Bytes := fun _ => List.replicate 32 0

/-- The first second of 2026. -/
def newYear : Time := ⟨⟨2026, 1, 1, 0, 0, 0, 0⟩, .utc, by decide⟩

def tapePath : Bytes := ofString "tape.jsonl"

/-- An exchange with these bodies, answered with status 200. -/
def exchangeOf (request response : Bytes) : Exchange where
  request := ⟨ofString "POST", ofString "/v1/messages", ∅, request⟩
  upstream := ⟨200, ∅, [⟨response, 0, true⟩], true, statusValid_ok⟩
  env := ⟨newYear, true⟩

theorem body_exchangeOf (request response : Bytes) :
    (exchangeOf request response).upstream.body = response := by
  simp [exchangeOf, Upstream.body]

theorem recorded_exchangeOf {request response : Bytes}
    (hrequest : Interaction.BodyFits maxNestingDepth request)
    (hresponse : Interaction.BodyFits maxNestingDepth response) :
    (exchangeOf request response).Recorded plainProxy where
  notSSE := rfl
  complete := rfl
  notSkipped := rfl
  fsOk := rfl
  request := hrequest
  response := by rwa [body_exchangeOf]

/-! ## The sequence is replayed -/

/-- For every sequence of recorded exchanges whose bodies leave room for the object of a
    line, the file is loaded, and each request of the sequence is answered with the status
    and the body of its own exchange. -/
theorem replay_recorded {p : Proxy} (hp : p.redactor = none) (sha256 : Bytes → Bytes)
    {path : Bytes} (hpath : path ≠ []) {es : List Exchange} (hes : ∀ e ∈ es, e.Recorded p)
    (hfits : ∀ e ∈ es, ∀ line, (e.recorded sha256).encode = some line →
      line.length ≤ maxCassetteLine)
    (hdepth : ∀ e ∈ es, Interaction.BodyFits 9999 e.request.body ∧
      Interaction.BodyFits 9999 e.upstream.body) :
    ∃ c, Cassette.load path (p.recordAll sha256 ⟨.new path, none⟩ es).file = some c ∧
      List.Forall₂ Exchange.AnsweredBy es
        (Replay.serveAll sha256 c (.new none) (es.map Exchange.request)) := by
  have hload : Cassette.load path (p.recordAll sha256 ⟨.new path, none⟩ es).file =
      some ((es.map fun e => (e.recorded sha256).stored).foldl Cassette.add (.new path)) := by
    -- without an exchange there is no file
    by_cases hne : es = []
    · subst hne
      rfl
    · obtain ⟨content, hfile, hwrite⟩ := Proxy.recordAll_eq hp sha256 hes
        ⟨.new path, none⟩ hpath (by simp [Cassette.new]) hne
      have hloadable : ∀ it ∈ (Cassette.new path).interactions ++
          es.map (Exchange.recorded · sha256), it.Loadable := by
        intro it hit
        obtain ⟨e, he, rfl⟩ : ∃ e ∈ es, e.recorded sha256 = it := by
          simpa [Cassette.new] using hit
        exact ⟨(hdepth e he).1, (hdepth e he).2, hfits e he⟩
      rw [hfile, (load_writeCassette hwrite _).1 hloadable]
      simp [Cassette.new, Function.comp_def]
  have hhash : List.Forall₂ (fun r it => hashRequest sha256 r.method r.path r.body = it.hash)
      (es.map Exchange.request) (es.map fun e => (e.recorded sha256).stored) := by
    rw [List.forall₂_map_left_iff, List.forall₂_map_right_iff, List.forall₂_same]
    exact fun e _ => (e.stored_hash sha256).symm
  let c := (es.map fun e => (e.recorded sha256).stored).foldl Cassette.add (.new path)
  have hanswers : Replay.serveAll sha256 c (.new none) (es.map Exchange.request) =
      (es.map fun e => (e.recorded sha256).stored).map Replay.replyOf :=
    Replay.serveAll_eq [] (Cassette.lookupSequence_foldl_add path _) rfl (fun hash => rfl) hhash
  refine ⟨c, hload, ?_⟩
  rw [hanswers, List.map_map, List.forall₂_map_right_iff, List.forall₂_same]
  exact fun e he => e.answeredBy_stored sha256 (hdepth e he).2

/-- One request twice with different answers, and another request in between. -/
def chatExchanges : List Exchange :=
  [exchangeOf (ofString "\x7b\"turn\": 1\x7d") (ofString "\x7b\"text\": \"a<b\"\x7d"),
    exchangeOf (ofString "[]") [],
    exchangeOf (ofString "\x7b\"turn\":1\x7d") (ofString "\x7b\"text\": \"again\"\x7d")]

theorem bodyFits_of_isSome {d : Nat} (hd : d ≤ maxNestingDepth) {body : Bytes}
    (h : body = [] ∨ (Json.valid body = true ∧
      (Json.parseValue d (Json.skipWs body)).isSome = true)) : Interaction.BodyFits d body := by
  obtain rfl | ⟨hvalid, hdepth⟩ := h
  · exact .inl rfl
  · obtain ⟨t, ht⟩ := Option.isSome_iff_exists.mp hvalid
    exact .inr ⟨t, ht, Json.lit_of_parseValue_isSome hd ht hdepth⟩

theorem chatExchanges_replayed :
    ∃ c, Cassette.load tapePath
        (plainProxy.recordAll zeroHash ⟨.new tapePath, none⟩ chatExchanges).file = some c ∧
      List.Forall₂ Exchange.AnsweredBy chatExchanges
        (Replay.serveAll zeroHash c (.new none) (chatExchanges.map Exchange.request)) := by
  have hbodies : ∀ e ∈ chatExchanges, Interaction.BodyFits 9999 e.request.body ∧
      Interaction.BodyFits 9999 e.upstream.body := by
    have hall : ∀ e ∈ chatExchanges, ∀ body ∈ [e.request.body, e.upstream.body], body = [] ∨
        (Json.valid body = true ∧ (Json.parseValue 9999 (Json.skipWs body)).isSome = true) := by
      decide
    intro e he
    exact ⟨bodyFits_of_isSome (by decide) (hall e he _ (by simp)),
      bodyFits_of_isSome (by decide) (hall e he _ (by simp))⟩
  have hlines : ∀ e ∈ chatExchanges,
      (e.recorded zeroHash).encode.all (fun line => line.length ≤ maxCassetteLine) = true := by
    decide +kernel
  refine replay_recorded rfl zeroHash (by decide) (fun e he => ?_) (fun e he line hline => ?_)
    hbodies
  · have hplain : ∀ e ∈ chatExchanges,
        isSSE (e.upstream.header.get (ofString "Content-Type")) = false ∧
          e.upstream.complete = true ∧ e.env.fsOk = true := by
      decide
    obtain ⟨hsse, hcomplete, hfs⟩ := hplain e he
    exact ⟨hsse, hcomplete, rfl, hfs, (hbodies e he).1.mono (by decide),
      (hbodies e he).2.mono (by decide)⟩
  · have hline' := hlines e he
    rw [hline] at hline'
    simpa using hline'

/-! ## The nesting limit -/

/-- A response of `n + 1` arrays around each other. -/
def nestedExchange (n : Nat) : Exchange := exchangeOf [] (Json.nested n).print

theorem joinComma_append_singleton {l : List Bytes} (h : l ≠ []) (s : Bytes) :
    joinComma (l ++ [s]) = joinComma l ++ 44 :: s := by
  induction l with
  | nil => exact absurd rfl h
  | cons a l ih =>
    cases l with
    | nil => rfl
    | cons b l =>
      rw [List.cons_append, List.cons_append, joinComma, ← List.cons_append, ih (by simp),
        joinComma]
      simp

/-- The members before the response body. -/
def nestedFront : List (Bytes × Json) :=
  [(Interaction.Field.recordedAt.tag, .str newYear.format),
    (Interaction.Field.hash.tag, strJson (Bytes.hexEncode (zeroHash []))),
    (Interaction.Field.method.tag, strJson (ofString "POST")),
    (Interaction.Field.path.tag, strJson (ofString "/v1/messages")),
    (Interaction.Field.responseStatus.tag, .num (Decimal.intText 200))]

section Nested

variable {n : Nat} (hn : n < Json.maxNestingDepth)
include hn

theorem parse_nested : Json.parse (nested n).print = some (nested n) :=
  Json.parse_print ((Json.lit_nested n).mono hn)

theorem nestedExchange_recorded : (nestedExchange n).Recorded plainProxy :=
  recorded_exchangeOf (.inl rfl) (.inr ⟨_, parse_nested hn, (Json.lit_nested n).mono hn⟩)

theorem nestedExchange_members : ((nestedExchange n).recorded zeroHash).members =
    some (nestedFront ++ [(Interaction.Field.responseBody.tag, nested n)]) := by
  have hbody : bodyField .responseBody (nestedExchange n).upstream.body =
      some [(Interaction.Field.responseBody.tag, nested n)] := by
    rw [nestedExchange, body_exchangeOf, bodyField,
      if_neg (Json.print_nested_ne_nil n), Interaction.rawJson, parse_nested hn, Option.map_some,
      Option.map_some, Json.mapStr_nested]
  have hresponse : bodyField .responseBody
      ((nestedExchange n).recorded zeroHash).responseBody =
      some [(Interaction.Field.responseBody.tag, nested n)] := hbody
  rw [Interaction.members, hresponse]
  rfl

/-- The line is a little longer than its body. -/
theorem nestedExchange_fits {line : Bytes}
    (h : ((nestedExchange n).recorded zeroHash).encode = some line) :
    line.length ≤ maxCassetteLine := by
  rw [encode, nestedExchange_members hn, Option.map_some] at h
  cases h
  have hfront : (joinComma (printMembers nestedFront)).length ≤ 1000 := by
    decide +kernel
  have htag : Interaction.Field.responseBody.tag.length ≤ 1000 := by decide
  have hprint : printMembers
      (nestedFront ++ [(Interaction.Field.responseBody.tag, nested n)]) =
      printMembers nestedFront ++
        [Json.printMember Interaction.Field.responseBody.tag (nested n).print] := by
    rw [Json.printMembers_eq, Json.printMembers_eq, List.map_append, List.map_singleton]
  have hne : printMembers nestedFront ≠ [] := by simp [nestedFront, printMembers]
  have hmax : maxCassetteLine = 33554432 := rfl
  have hdepth : maxNestingDepth = 10000 := rfl
  rw [Interaction.print_obj, hprint, joinComma_append_singleton hne]
  simp only [Json.printMember, List.length_append, List.length_cons, List.length_nil,
    Json.length_print_nested]
  omega

/-- Its body is read back only if the decoder's limit leaves room for one more level. -/
theorem nestedExchange_not_loadable (hdeep : n = maxNestingDepth - 1) :
    ¬ ((nestedExchange n).recorded zeroHash).Loadable := by
  rintro ⟨_, hfits, _⟩
  have hbody : ((nestedExchange n).recorded zeroHash).responseBody = (nested n).print :=
    body_exchangeOf [] _
  rw [hbody] at hfits
  obtain hnil | ⟨t, ht, hlit⟩ := hfits
  · exact Json.print_nested_ne_nil n hnil
  · rw [parse_nested hn] at ht
    cases ht
    rw [← hdeep] at hlit
    exact Json.not_lit_nested n hlit

end Nested

/-- A response of 10000 arrays around each other, as deep as `encoding/json` allows. -/
def deepExchange : Exchange := nestedExchange (Json.maxNestingDepth - 1)

/-- The exchange is recorded, and its line fits, but its body leaves no room for the object
    around it, so the cassette cannot be loaded and nothing is replayed. -/
theorem deepExchange_not_replayed :
    deepExchange.Recorded plainProxy ∧
      (∀ line, (deepExchange.recorded zeroHash).encode = some line →
        line.length ≤ maxCassetteLine) ∧
      (plainProxy.recordAll zeroHash ⟨.new tapePath, none⟩ [deepExchange]).file.isSome = true ∧
      Cassette.load tapePath
        (plainProxy.recordAll zeroHash ⟨.new tapePath, none⟩ [deepExchange]).file = none := by
  have hlt : Json.maxNestingDepth - 1 < Json.maxNestingDepth := by decide
  have hrecorded : deepExchange.Recorded plainProxy := nestedExchange_recorded hlt
  obtain ⟨content, hfile, hwrite⟩ := Proxy.recordAll_eq rfl zeroHash
    (List.forall_mem_singleton.mpr hrecorded) ⟨.new tapePath, none⟩ (by decide)
    (by simp [Cassette.new]) (by simp)
  refine ⟨hrecorded, fun line => nestedExchange_fits hlt, by rw [hfile]; rfl, ?_⟩
  rw [hfile]
  refine (load_writeCassette hwrite tapePath).2 fun hload => ?_
  exact nestedExchange_not_loadable hlt rfl (hload (deepExchange.recorded zeroHash) (by simp))

end MockAgents
