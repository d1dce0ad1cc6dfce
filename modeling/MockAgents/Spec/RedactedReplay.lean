import MockAgents.Recording.Replay
import MockAgents.Spec.RedactedBody

/-!
# Replaying redacted interactions

An interaction keeps the hash of the request as it came, so a `Replay` without ignored
fields finds it again. A match key is computed from the body on the tape instead, which is
the redacted one. With a matcher that ignores fields, the interaction is found iff the
redactor changed nothing that the matcher looks at.
-/

namespace MockAgents

open Json (IsValue)

/-! ## Requests that are made again and again -/

namespace Replay

variable (sha256 : Bytes → Bytes) (c : Cassette) (r : Request)

/-- The answer to the request after it was answered `n` times. -/
def answer (rp : Replay) : Nat → Option Interaction
  | 0 => (rp.find sha256 c r).2
  | n + 1 => answer (rp.find sha256 c r).1 n

variable {sha256 c r} {key : Bytes} {seq : List Interaction} {rp : Replay} {k : Nat}

theorem advance_eq (hcursor : (rp.cursor.lookup key).getD 0 = k) (hk : k ≤ seq.length) :
    ∃ cursor, rp.advance key seq = ({ rp with cursor := cursor }, seq[min k (seq.length - 1)]?) ∧
      (cursor.lookup key).getD 0 = min (k + 1) seq.length := by
  unfold advance
  split
  · rename_i hnil
    subst hnil
    exact ⟨rp.cursor, rfl, by simp at hk ⊢; omega⟩
  · rename_i hne
    simp only [hcursor]
    split
    · refine ⟨rp.cursor, ?_, by omega⟩
      rw [show min k (seq.length - 1) = seq.length - 1 by omega]
    · refine ⟨rp.cursor.insert key (k + 1), ?_, ?_⟩
      · rw [show min k (seq.length - 1) = k by omega]
      · rw [GoMap.lookup_insert_eq, if_pos rfl]
        simp only [Option.getD_some]
        omega

variable {Inv : Replay → Prop}

/-- If every `find` takes the next of `seq`, the answers are the elements of `seq`, and then
    its last one. `Inv` is what keeps `find` at `seq`. -/
theorem answer_eq
    (hfind : ∀ rp, Inv rp → ∃ rp₁ : Replay, rp.find sha256 c r = rp₁.advance key seq ∧
      rp₁.cursor = rp.cursor ∧ ∀ cursor, Inv { rp₁ with cursor := cursor }) (h : Inv rp)
    (hcursor : (rp.cursor.lookup key).getD 0 = k) (hk : k ≤ seq.length) (n : Nat) :
    rp.answer sha256 c r n = seq[min (k + n) (seq.length - 1)]? := by
  induction n generalizing rp k with
  | zero =>
    obtain ⟨rp₁, heq, hsame, _⟩ := hfind rp h
    obtain ⟨cursor, hadvance, _⟩ := advance_eq (hsame ▸ hcursor) hk
    rw [answer, heq, hadvance, Nat.add_zero]
  | succ n ih =>
    obtain ⟨rp₁, heq, hsame, hnext⟩ := hfind rp h
    obtain ⟨cursor, hadvance, hcursor'⟩ := advance_eq (hsame ▸ hcursor) hk
    rw [answer, heq, hadvance, ih (hnext cursor) hcursor' (Nat.min_le_right _ _)]
    rw [show min (min (k + 1) seq.length + n) (seq.length - 1) =
      min (k + (n + 1)) (seq.length - 1) by omega]

theorem exists_getElem?_min_iff {α : Type} (l : List α) (a : α) :
    (∃ n, l[min n (l.length - 1)]? = some a) ↔ a ∈ l := by
  constructor
  · rintro ⟨n, hn⟩
    exact List.mem_of_getElem? hn
  · intro ha
    obtain ⟨n, hn, rfl⟩ := List.mem_iff_getElem.mp ha
    refine ⟨n, ?_⟩
    rw [show min n (l.length - 1) = n by omega, List.getElem?_eq_getElem hn]

/-- A fresh `Replay` walks through the whole of `seq`. -/
theorem exists_answer_of_find
    (hfind : ∀ rp, Inv rp → ∃ rp₁ : Replay, rp.find sha256 c r = rp₁.advance key seq ∧
      rp₁.cursor = rp.cursor ∧ ∀ cursor, Inv { rp₁ with cursor := cursor })
    {matcher : Option Matcher} (h : Inv (new matcher)) (it : Interaction) :
    (∃ n, (new matcher).answer sha256 c r n = some it) ↔ it ∈ seq := by
  have hcursor : ((new matcher).cursor.lookup key).getD 0 = 0 := rfl
  have hanswer : ∀ n, (new matcher).answer sha256 c r n = seq[min n (seq.length - 1)]? := by
    intro n
    rw [answer_eq hfind h hcursor (Nat.zero_le _), Nat.zero_add]
  simp only [hanswer]
  exact exists_getElem?_min_iff seq it

/-- The interactions that a fresh `Replay` walks through for a request. -/
def candidates (sha256 : Bytes → Bytes) (c : Cassette) (r : Request) (matcher : Option Matcher) :
    List Interaction :=
  match matcher with
  | some m =>
    if Matcher.active (some m) then
      c.interactions.filter fun it =>
        m.key sha256 it.method it.path it.requestBody = m.key sha256 r.method r.path r.body
    else c.lookupSequence (hashRequest sha256 r.method r.path r.body)
  | none => c.lookupSequence (hashRequest sha256 r.method r.path r.body)

/-- The index, brought up to date if the cassette has grown. -/
def extended (sha256 : Bytes → Bytes) (c : Cassette) (m : Matcher) (rp : Replay) : Replay :=
  if rp.builtLen < c.len then rp.extendMatchIndex sha256 m c else rp

theorem lookup_extended_new (m : Matcher) (key : Bytes) :
    (((new (some m)).extended sha256 c m).byMatchKey.lookup key).getD [] =
      c.interactions.filter fun it => m.key sha256 it.method it.path it.requestBody = key := by
  unfold extended
  split
  · show ((((c.interactions.drop 0).foldl _ ∅ : GoMap Bytes (List Interaction)).lookup key).getD
      [] : List Interaction) = _
    rw [List.drop_zero, GoMap.lookup_foldl_group]
    rfl
  · rename_i hempty
    have hnil : c.interactions = [] := by
      rw [← List.length_eq_zero_iff]
      have : ¬ 0 < c.interactions.length := hempty
      omega
    rw [hnil]
    rfl

theorem extended_extended (m : Matcher) (rp : Replay) (cursor : GoMap Bytes Nat) :
    { rp.extended sha256 c m with cursor := cursor }.extended sha256 c m =
      { rp.extended sha256 c m with cursor := cursor } := by
  have hbuilt : ¬ (rp.extended sha256 c m).builtLen < c.len := by
    unfold extended
    split
    · exact Nat.lt_irrefl c.len
    · assumption
  exact if_neg hbuilt

/-- What a fresh `Replay` answers in the end is what it walks through. -/
theorem exists_answer_iff (matcher : Option Matcher) (it : Interaction) :
    (∃ n, (new matcher).answer sha256 c r n = some it) ↔ it ∈ candidates sha256 c r matcher := by
  by_cases hactive : Matcher.active matcher = true
  · -- with a matcher, the candidates stand under its key of the request
    obtain ⟨m, rfl⟩ : ∃ m, matcher = some m := by
      cases matcher with
      | none => cases hactive
      | some m => exact ⟨m, rfl⟩
    let key := m.key sha256 r.method r.path r.body
    have hfind : ∀ rp : Replay, (rp.matcher = some m ∧
        ((rp.extended sha256 c m).byMatchKey.lookup key).getD [] = candidates sha256 c r (some m)) →
        ∃ rp₁ : Replay, rp.find sha256 c r = rp₁.advance key (candidates sha256 c r (some m)) ∧
          rp₁.cursor = rp.cursor ∧ ∀ cursor, ({ rp₁ with cursor := cursor } : Replay).matcher =
            some m ∧ (({ rp₁ with cursor := cursor }.extended sha256 c m).byMatchKey.lookup
              key).getD [] = candidates sha256 c r (some m) := by
      rintro rp ⟨hm, hseq⟩
      refine ⟨rp.extended sha256 c m, ?_, ?_, fun cursor => ⟨?_, ?_⟩⟩
      · rw [find, hm]
        simp only [hactive, if_true]
        rw [← hseq]
        rfl
      · unfold extended
        split <;> rfl
      · rw [← hm]
        unfold extended
        split <;> rfl
      · rw [extended_extended]
        exact hseq
    have hseq : (((new (some m)).extended sha256 c m).byMatchKey.lookup key).getD [] =
        candidates sha256 c r (some m) := by
      rw [lookup_extended_new, candidates, if_pos hactive]
    exact exists_answer_of_find hfind ⟨rfl, hseq⟩ it
  · -- without one, they stand under the hash
    have hcandidates : candidates sha256 c r matcher =
        c.lookupSequence (hashRequest sha256 r.method r.path r.body) := by
      cases matcher with
      | none => rfl
      | some m => rw [candidates, if_neg hactive]
    have hfind : ∀ rp : Replay, rp.matcher = matcher →
        ∃ rp₁ : Replay, rp.find sha256 c r = rp₁.advance
            (hashRequest sha256 r.method r.path r.body) (candidates sha256 c r matcher) ∧
          rp₁.cursor = rp.cursor ∧
          ∀ cursor, ({ rp₁ with cursor := cursor } : Replay).matcher = matcher := by
      intro rp hm
      refine ⟨rp, ?_, rfl, fun _ => hm⟩
      rw [hcandidates, find, hm]
      cases matcher with
      | none => rfl
      | some m =>
        simp only [hactive]
        rfl
    exact exists_answer_of_find hfind rfl it

end Replay

/-! ## What is on the tape -/

/-- What the redactor of a proxy, if there is one, makes of a request body. -/
def Proxy.redactedBody (p : Proxy) (body : Bytes) : Bytes :=
  match p.redactor with
  | some red => red.redactBody body
  | none => body

/-- The interaction of a request: it has the hash of the request as it came, and the
    redacted body. -/
structure Interaction.Records (it : Interaction) (p : Proxy) (sha256 : Bytes → Bytes)
    (r : Request) : Prop where
  hash : it.hash = hashRequest sha256 r.method r.path r.body
  method : it.method = r.method
  path : it.path = r.path
  requestBody : it.requestBody = p.redactedBody r.body

variable {p : Proxy} {sha256 : Bytes → Bytes} {env : Env} {tape : Tape} {r : Request}

theorem hashRequest_ne_nil (hsha : ∀ b, sha256 b ≠ []) (method path body : Bytes) :
    hashRequest sha256 method path body ≠ [] := by
  obtain ⟨x, l, hx⟩ := List.exists_cons_of_ne_nil
    (hsha (method ++ 10 :: path ++ 10 :: canonicalBody body))
  rw [hashRequest, hx]
  exact nofun

/-- A proxy leaves the cassette alone or adds the interaction of the request. -/
theorem Proxy.record_cassette (hsha : ∀ b, sha256 b ≠ []) (skip : Bool) {it : Interaction}
    (hhash : it.hash = hashRequest sha256 r.method r.path r.body) (hmethod : it.method = r.method)
    (hpath : it.path = r.path) (hbody : it.requestBody = r.body) :
    (p.record sha256 env tape skip it).1.cassette = tape.cassette ∨
      ∃ it', (p.record sha256 env tape skip it).1.cassette = tape.cassette.add it' ∧
        it'.Records p sha256 r := by
  cases skip with
  | true => exact .inl rfl
  | false =>
    have hne : it.hash ≠ [] := hhash ▸ hashRequest_ne_nil hsha r.method r.path r.body
    cases hred : p.redactor with
    | none =>
      refine .inr ⟨Cassette.prepare sha256 env.now it, ?_, ?_⟩
      · simp only [record, hred]
        rfl
      · refine ⟨(if_neg hne).trans hhash, hmethod, hpath, ?_⟩
        show it.requestBody = p.redactedBody r.body
        rw [redactedBody, hred, hbody]
    | some red =>
      refine .inr ⟨Cassette.prepare sha256 env.now (red.apply it), ?_, ?_⟩
      · simp only [record, hred]
        rfl
      · refine ⟨(if_neg hne).trans hhash, hmethod, hpath, ?_⟩
        show red.redactBody it.requestBody = p.redactedBody r.body
        rw [redactedBody, hred, hbody]

theorem Proxy.serveHTTP_cassette (hsha : ∀ b, sha256 b ≠ []) (upstream : Option Upstream) :
    (p.serveHTTP sha256 env tape r upstream).1.cassette = tape.cassette ∨
      ∃ it, (p.serveHTTP sha256 env tape r upstream).1.cassette = tape.cassette.add it ∧
        it.Records p sha256 r := by
  unfold serveHTTP
  split
  · exact .inl rfl
  · split
    · exact record_cassette hsha _ rfl rfl rfl rfl
    · split
      · exact .inl rfl
      · exact record_cassette hsha _ rfl rfl rfl rfl

/-! ## Match keys of redacted bodies -/

theorem hashRequest_inj (hsha : Function.Injective sha256) (method path a b : Bytes) :
    hashRequest sha256 method path a = hashRequest sha256 method path b ↔
      canonicalBody a = canonicalBody b := by
  constructor
  · intro h
    have htexts := hsha (Bytes.hexEncode_injective h)
    exact List.cons_injective (List.append_cancel_left htexts)
  · intro h
    rw [hashRequest, h, ← hashRequest]

namespace Matcher

/-- The part of a value that an active matcher looks at. -/
def stripValue (m : Matcher) : Json → Json
  | .obj members => .obj (members.filter fun e => e.1 ∉ m.ignoreFields)
  | v => v

variable {v : Json}

variable (m : Matcher)

theorem isValue_stripValue {number : Bytes → Option Bytes} {d : Nat} (h : IsValue number d v) :
    IsValue number d (m.stripValue v) := by
  cases h with
  | null | bool | num | str | arr => constructor <;> assumption
  | obj hsorted hkeys hmembers =>
    refine .obj (hsorted.sublist List.filter_sublist) (fun e he => ?_) (fun e he => ?_)
    · exact hkeys e (List.mem_of_mem_filter he)
    · exact hmembers e (List.mem_of_mem_filter he)

variable {body : Bytes}

theorem canonicalBody_strip (h : Json.unmarshal body = some v) :
    canonicalBody (m.strip body) = Json.encode true (m.stripValue v) := by
  have hvalue := m.isValue_stripValue (Json.isValue_of_unmarshal h)
  cases v with
  | obj members =>
    have hstrip : m.strip body = Json.encode true (m.stripValue (.obj members)) := by
      rw [strip, h]
      rfl
    rw [hstrip, canonicalBody, Json.unmarshal_encode hvalue]
  | null | bool | num | str | arr =>
    have hstrip : m.strip body = body := by rw [strip, h]
    rw [hstrip, canonicalBody, h]
    rfl

/-- The text that is hashed for a body without one. -/
theorem canonicalBody_strip_none (h : Json.unmarshal body = none) :
    canonicalBody (m.strip body) = body := by
  have hstrip : m.strip body = body := by rw [strip, h]
  rw [hstrip, canonicalBody, h]

theorem stripValue_mapLeaves (f : Bytes → Bytes) (v : Json) :
    m.stripValue (mapLeaves f v) = mapLeaves f (m.stripValue v) := by
  cases v with
  | obj members =>
    simp only [stripValue, mapLeaves, mapLeavesMembers_eq, List.filter_map, Function.comp_def]
  | null | bool | num | str | arr => simp only [stripValue, mapLeaves]

end Matcher

namespace Redactor

/-- The redactor changes no string leaf of the value. -/
def KeepsLeaves (red : Redactor) (v : Json) : Prop := ∀ s ∈ leaves v, red.redactString s = s

instance (red : Redactor) (v : Json) : Decidable (red.KeepsLeaves v) :=
  inferInstanceAs (Decidable (∀ s ∈ leaves v, red.redactString s = s))

/-- The redactor changes nothing that the matcher looks at: no string leaf outside the
    ignored fields, and nothing at all in a body that has no value. -/
def KeepsMatched (red : Redactor) (m : Matcher) (body : Bytes) : Prop :=
  match Json.unmarshal body with
  | some v => red.KeepsLeaves (m.stripValue v)
  | none => red.redactBody body = body

instance (red : Redactor) (m : Matcher) (body : Bytes) : Decidable (red.KeepsMatched m body) :=
  match h : Json.unmarshal body with
  | some v => decidable_of_iff (red.KeepsLeaves (m.stripValue v)) (by rw [KeepsMatched, h])
  | none => decidable_of_iff (red.redactBody body = body) (by rw [KeepsMatched, h])

theorem redactBody_of_redactString (red : Redactor) {body : Bytes}
    (h : red.redactString body = body) : red.redactBody body = body := by
  rw [redactBody, if_pos h, ite_self]

/-- The match key of the redacted body is that of the body iff the redactor finds nothing in
    the text, or changes nothing that the matcher looks at. -/
theorem canonicalBody_strip_redactBody (red : Redactor) (m : Matcher) (body : Bytes) :
    canonicalBody (m.strip (red.redactBody body)) = canonicalBody (m.strip body) ↔
      red.redactString body = body ∨ red.KeepsMatched m body := by
  by_cases htext : red.redactString body = body
  · simp [htext, red.redactBody_of_redactString htext]
  cases hv : Json.unmarshal body with
  | some v =>
    have hf : ∀ s, Bytes.isUtf8 s = true → Bytes.isUtf8 (red.redactString s) = true :=
      fun s => red.isUtf8_redactString
    have hvalue := m.isValue_stripValue (Json.isValue_of_unmarshal hv)
    rw [m.canonicalBody_strip hv, m.canonicalBody_strip (red.unmarshal_redactBody hv htext),
      m.stripValue_mapLeaves, KeepsMatched, hv, or_iff_right htext]
    show _ ↔ ∀ s ∈ leaves (m.stripValue v), red.redactString s = s
    rw [← mapLeaves_eq_self_iff]
    exact ⟨Json.encode_injective (isValue_mapLeaves hf hvalue) hvalue, congrArg _⟩
  | none =>
    rw [m.canonicalBody_strip_none hv, KeepsMatched, hv, or_iff_right htext]
    cases hred : Json.unmarshal (red.redactBody body) with
    | none => rw [m.canonicalBody_strip_none hred]
    | some w =>
      -- what is hashed has a value, and the body has none
      have hvalue := m.isValue_stripValue (Json.isValue_of_unmarshal hred)
      rw [m.canonicalBody_strip hred]
      constructor
      · intro heq
        rw [← heq, Json.unmarshal_encode hvalue] at hv
        cases hv
      · intro heq
        rw [heq, hv] at hred
        cases hred

end Redactor

/-! ## What is found -/

theorem Cassette.mem_lookupSequence_add (c : Cassette) (it : Interaction) :
    it ∈ (c.add it).lookupSequence it.hash := by
  rw [lookupSequence, add, GoMap.lookup_insert_eq, if_pos rfl]
  simp

/-- A proxy with a redactor has recorded a request as `it`. A fresh `Replay` over the
    cassette that gets the same request, again and again, serves `it` at some point iff its
    matcher ignores no fields, or the redactor found nothing in the request body, or it
    changed nothing in it that the matcher looks at. -/
theorem redacted_found_iff (hsha : Function.Injective sha256) (hne : ∀ b, sha256 b ≠ [])
    {red : Redactor} (hred : p.redactor = some red) {upstream : Option Upstream}
    {it : Interaction}
    (hrecorded : (p.serveHTTP sha256 env tape r upstream).1.cassette.interactions =
      tape.cassette.interactions ++ [it]) (m : Matcher) :
    (∃ n, (Replay.new (some m)).answer sha256 (p.serveHTTP sha256 env tape r upstream).1.cassette r
        n = some it) ↔
      m.ignoreFields = [] ∨ red.redactString r.body = r.body ∨ red.KeepsMatched m r.body := by
  rw [Replay.exists_answer_iff]
  obtain hsame | ⟨it', hadd, hit⟩ := p.serveHTTP_cassette hne upstream
  · rw [hsame] at hrecorded
    have := congrArg List.length hrecorded
    simp at this
  · rw [hadd] at hrecorded ⊢
    obtain rfl : it' = it := by simpa [Cassette.add] using hrecorded
    by_cases hactive : Matcher.active (some m) = true
    · have hfields : m.ignoreFields ≠ [] := by simpa [Matcher.active] using hactive
      have hbody : it'.requestBody = red.redactBody r.body := by
        rw [hit.requestBody, Proxy.redactedBody, hred]
      have hmem : it' ∈ (tape.cassette.add it').interactions := by simp [Cassette.add]
      rw [Replay.candidates, if_pos hactive, List.mem_filter, and_iff_right hmem,
        decide_eq_true_eq, hit.method, hit.path, hbody, Matcher.key, Matcher.key,
        hashRequest_inj hsha, red.canonicalBody_strip_redactBody, or_iff_right hfields]
    · have hfields : m.ignoreFields = [] := by simpa [Matcher.active] using hactive
      rw [Replay.candidates, if_neg hactive, ← hit.hash]
      simp only [hfields, true_or, iff_true]
      exact tape.cassette.mem_lookupSequence_add it'

/-! ## Sample requests -/

def taggedHash (b : Bytes) : Bytes := 0 :: b

theorem taggedHash_injective : Function.Injective taggedHash := List.cons_injective

/-- A redactor without patterns of its own. -/
def plainRedactor : Redactor := ⟨[]⟩

def redactingProxy : Proxy := ⟨some plainRedactor, false⟩

def chatRequest (body : String) : Request :=
  ⟨Bytes.ofString "POST", Bytes.ofString "/v1/chat/completions", ∅, Bytes.ofString body⟩

/-- An empty answer. -/
def okUpstream : Upstream := ⟨200, ∅, [], true, statusValid_ok⟩

def emptyTape : Tape := ⟨.new [], none⟩

/-- The tape after one request. -/
def recordedTape (body : String) : Tape :=
  (redactingProxy.serveHTTP taggedHash ⟨Time.zero, true⟩ emptyTape (chatRequest body)
    (some okUpstream)).1

/-- What is on the tape after one request. -/
def recordedChat (body : String) : Interaction :=
  (recordedTape body).cassette.interactions.headD Interaction.zero

def ignoreUser : Matcher := ⟨[Bytes.ofString "user"]⟩

/-- The key is in the field that the matcher ignores. -/
def maskedUser : String := "\x7b\"prompt\":\"hi\",\"user\":\"sk-abc\"\x7d"

theorem maskedUser_found :
    (recordedChat maskedUser).requestBody =
        Bytes.ofString "\x7b\"prompt\":\"hi\",\"user\":\"sk-***\"\x7d" ∧
      ∃ n, (Replay.new (some ignoreUser)).answer taggedHash (recordedTape maskedUser).cassette
        (chatRequest maskedUser) n = some (recordedChat maskedUser) := by
  refine ⟨by decide +kernel, ?_⟩
  refine (redacted_found_iff taggedHash_injective (fun _ => List.cons_ne_nil _ _) rfl rfl
    ignoreUser).mpr (.inr (.inr ?_))
  decide +kernel

def maskedPrompt : String := "\x7b\"prompt\":\"sk-abc\",\"user\":\"u1\"\x7d"

/-- The request is never answered with what was recorded for it. -/
theorem maskedPrompt_not_found :
    (recordedTape maskedPrompt).cassette.interactions = [recordedChat maskedPrompt] ∧
      ¬ ∃ n, (Replay.new (some ignoreUser)).answer taggedHash (recordedTape maskedPrompt).cassette
        (chatRequest maskedPrompt) n = some (recordedChat maskedPrompt) := by
  refine ⟨rfl, ?_⟩
  have hnone : (Replay.candidates taggedHash (recordedTape maskedPrompt).cassette
      (chatRequest maskedPrompt) (some ignoreUser)).isEmpty = true := by
    decide +kernel
  rw [Replay.exists_answer_iff, List.isEmpty_iff.mp hnone]
  exact List.not_mem_nil

end MockAgents
