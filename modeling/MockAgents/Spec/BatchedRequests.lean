import MockAgents.Adapter.Batches

/-!
# Batched requests

A batch sends each request body through the endpoint's handler after `disableStreaming`. The
handler should get the request of that body with streaming off.

`disableStreaming` looks for the key `stream` as it is spelled, and rewrites the body with
its keys in order. The handler folds the case of keys and takes the members as they come. So
the request changes if another spelling of `stream` is left, and, once there is a `stream`,
if the order of the members or one of several spellings of a field mattered.
-/

namespace MockAgents

open Json (unquoted escapeRaw parse)
open SortedMap (ofList sorted_ofList mem_ofList mem_insert)
open StructType (stored firstError_append values_append decode_eq_iff values)
open Bytes (isUtf8 ofString)
open List (mem_filter mem_map)

namespace RequestType

variable (T : RequestType)

/-- The key that `disableStreaming` looks for. -/
def streamKey : Bytes := ofString "stream"

/-- The request asks for a stream. -/
def streams (st : T.struct.State) : Bool := st none

/-- What members leave in the `stream` flag. -/
def streamFlag (l : List (Bytes × Json)) : Bool := T.struct.stored none l

def streamingOff (l : List (Bytes × Json)) : List (Bytes × Json) :=
  l.map fun m => if namesStream m.1 then (m.1, .bool false) else m

/-- The request of a body with streaming off. -/
def decodeStreamingOff (body : Bytes) : Except BodyError T.struct.State :=
  if body.length > maxDecodeBodyBytes then .error .tooLarge
  else
    match parse body with
    | some (.obj ms) => (T.struct.decode (streamingOff (keyed ms))).mapError .invalid
    | _ => T.decodeJSONBody body

/-- Whatever the endpoint does with its requests, the handler does not stream, and what it
    is captured with is its answer to the body with streaming off. -/
def BatchedAsAsked (body : Bytes) : Prop :=
  (∀ st, T.decodeJSONBody (disableStreaming body) = .ok st → T.streams st = false) ∧
    ∀ {σ : Type} (serve : σ → Except BodyError T.struct.State → σ × Recorded) (s : σ),
      dispatch (T.handler serve) s body =
        ((serve s (T.decodeStreamingOff body)).1,
          (serve s (T.decodeStreamingOff body)).2.capture)

/-! ## The condition -/

/-- The members under keys other than `stream`, the last under each key, in key order. -/
def otherKeys (l : List (Bytes × Json)) : List (Bytes × Json) :=
  (SortedMap.ofList l).filter fun e => e.1 ≠ streamKey

/-- The size of the members in a compact text with the characters of HTML escaped. -/
def writtenSize (l : List (Bytes × Json)) : Nat :=
  (l.map fun e =>
    (Json.quote true e.1).length + (e.2.mapStr escapeRaw).print.length + 4).sum

/-- With a `stream` among the keys, the order of the keys has to give the same request: the
    same first error or, without one, the same fields, and no spelling of `stream` that sorts
    after it may be on; and the size limit has to treat both texts alike, where the 16 bytes
    are those of the braces and of `stream` itself. Without one, no spelling of `stream` may
    be on or be the first error. -/
def KeepsRequest (body : Bytes) (l : List (Bytes × Json)) : Prop :=
  (streamKey ∈ l.map Prod.fst →
    (body.length ≤ maxDecodeBodyBytes ↔ writtenSize (otherKeys l) + 16 ≤ maxDecodeBodyBytes) ∧
      (body.length ≤ maxDecodeBodyBytes →
        T.struct.firstError (otherKeys l) = T.struct.firstError (streamingOff l) ∧
          (T.struct.firstError (streamingOff l) = none →
            (∀ f : T.Field,
              T.struct.stored (some f) (otherKeys l) = T.struct.stored (some f) l) ∧
            T.streamFlag ((otherKeys l).filter fun e => streamKey < e.1) = false))) ∧
  (streamKey ∉ l.map Prod.fst → body.length ≤ maxDecodeBodyBytes →
    T.struct.firstError l = T.struct.firstError (streamingOff l) ∧
      (T.struct.firstError (streamingOff l) = none → T.streamFlag l = false))

/-! ## Which field a key names -/

variable {key : Bytes}

theorem named_of_namesStream (h : namesStream key = true) :
    T.struct.named key = some none := if_pos h

theorem namesStream_streamKey : namesStream streamKey = true := by decide

theorem named_streamKey : T.struct.named streamKey = some none :=
  named_of_namesStream T namesStream_streamKey

theorem named_ne_some_of_namesStream (h : namesStream key = true) (f : T.Field) :
    T.struct.named key ≠ some (some f) := by
  rw [named_of_namesStream T h]
  exact fun heq => nomatch Option.some.inj heq

theorem namesStream_of_named (h : T.struct.named key = some none) : namesStream key = true := by
  by_contra hkey
  have hnamed : T.struct.named key = (T.all.find? fun f =>
      Interaction.foldName key = Interaction.foldName (ofString (T.tag f))).map some :=
    if_neg hkey
  rw [hnamed] at h
  obtain ⟨f, _, heq⟩ := Option.map_eq_some_iff.mp h
  cases heq

/-! ## Streaming off -/

theorem stored_streamingOff (f : T.Field) (l : List (Bytes × Json)) :
    T.struct.stored (some f) (streamingOff l) = T.struct.stored (some f) l := by
  have hvalues : T.struct.values (some f) (streamingOff l) = T.struct.values (some f) l := by
    induction l with
    | nil => rfl
    | cons m l ih =>
      rw [streamingOff, List.map_cons, ← streamingOff]
      by_cases hm : namesStream m.1 = true
      · have hne := named_ne_some_of_namesStream T hm f
        rw [if_pos hm, T.struct.values_cons_of_ne (m := (m.1, .bool false)) hne,
          T.struct.values_cons_of_ne hne, ih]
      · rw [if_neg hm]
        by_cases hf : T.struct.named m.1 = some (some f)
        · rw [T.struct.values_cons_of_named hf, T.struct.values_cons_of_named hf, ih]
        · rw [T.struct.values_cons_of_ne hf, T.struct.values_cons_of_ne hf, ih]
  rw [stored, hvalues, stored]

variable (l : List (Bytes × Json))

theorem streamFlag_streamingOff : T.streamFlag (streamingOff l) = false := by
  -- every value for the flag is `false`
  have hvalues : ∀ v ∈ T.struct.values none (streamingOff l), v = .bool false := by
    intro v hv
    obtain ⟨m, hm, rfl⟩ := mem_map.mp hv
    obtain ⟨hmem, hnamed⟩ := mem_filter.mp hm
    obtain ⟨m', _, rfl⟩ := mem_map.mp hmem
    have hkey := namesStream_of_named T (by simpa only [decide_eq_true_eq] using hnamed)
    by_cases hm' : namesStream m'.1 = true
    · rw [if_pos hm']
    · rw [if_neg hm'] at hkey
      exact absurd hkey hm'
  have hfold : ∀ vs : List Json, (∀ v ∈ vs, v = .bool false) →
      vs.foldl (T.struct.store none) false = false := by
    intro vs
    induction vs with
    | nil => exact fun _ => rfl
    | cons v vs ih =>
      intro hvs
      rw [hvs v (by simp), List.foldl_cons]
      exact ih fun v' hv' => hvs v' (by simp [hv'])
  exact hfold _ hvalues

/-! ## The rewritten body -/

/-- The members of the rewritten body. -/
def rewritten (l : List (Bytes × Json)) : List (Bytes × Json) :=
  SortedMap.insert streamKey (.bool false) (ofList l)

theorem rewritten_eq :
    ∃ before after, otherKeys l = before ++ after ∧
      after = ((otherKeys l).filter fun e => streamKey < e.1) ∧
      rewritten l = before ++ (streamKey, .bool false) :: after := by
  have hsorted := sorted_ofList l
  refine ⟨_, _, ?_, ?_, hsorted.insert_eq streamKey (.bool false)⟩
  · rw [← hsorted.filter_ne streamKey]
    exact List.filter_congr fun e _ => by simp
  rw [otherKeys, List.filter_filter]
  refine List.filter_congr fun e _ => ?_
  by_cases he : streamKey < e.1
  · simp [he, ne_of_gt he]
  · simp [he]

theorem firstError_rewritten :
    T.struct.firstError (rewritten l) = T.struct.firstError (otherKeys l) := by
  obtain ⟨before, after, hother, _, hrewritten⟩ := rewritten_eq l
  have hnone : T.struct.memberError (streamKey, .bool false) = none := by
    rw [StructType.memberError, named_streamKey]
    rfl
  rw [hrewritten, hother, firstError_append, StructType.firstError_cons, hnone,
    firstError_append, Option.none_or]

theorem stored_rewritten (f : T.Field) (l : List (Bytes × Json)) :
    T.struct.stored (some f) (rewritten l) = T.struct.stored (some f) (otherKeys l) := by
  obtain ⟨before, after, hother, _, hrewritten⟩ := rewritten_eq l
  have hne : T.struct.named streamKey ≠ some (some f) :=
    named_ne_some_of_namesStream T namesStream_streamKey f
  rw [hrewritten, hother, stored, values_append,
    StructType.values_cons_of_ne _ hne, ← values_append, stored]

theorem streamFlag_rewritten :
    T.streamFlag (rewritten l) =
      T.streamFlag ((otherKeys l).filter fun e => streamKey < e.1) := by
  obtain ⟨before, after, _, hafter, hrewritten⟩ := rewritten_eq l
  rw [← hafter, hrewritten]
  show T.struct.stored none _ = T.struct.stored none after
  -- what stands before `stream` is overwritten
  rw [stored, values_append,
    StructType.values_cons_of_named _ (named_streamKey T), List.foldl_append, List.foldl_cons]
  rfl

/-- The entries as `encoding/json` writes them. -/
def written (l : List (Bytes × Json)) : List (Bytes × Json) :=
  l.map fun e => (Json.quote true e.1, e.2.mapStr escapeRaw)

variable {body : Bytes} {ms : List (Bytes × Json)}

theorem length_written :
    (Json.obj (written (rewritten l))).print.length = writtenSize (otherKeys l) + 16 := by
  obtain ⟨before, after, hother, _, hrewritten⟩ := rewritten_eq l
  have hsizes : (Json.quote true streamKey).length +
      ((Json.bool false).mapStr escapeRaw).print.length + 4 = 15 := by decide
  have hne : written (before ++ (streamKey, .bool false) :: after) ≠ [] := by simp [written]
  rw [hrewritten, Json.length_print_obj hne, hother, writtenSize, written, List.map_map]
  simp only [List.map_append, List.map_cons, List.sum_append, List.sum_cons, Function.comp_def]
  omega

private theorem mapError_invalid_inj {α : Type} {x y : Except String α} :
    x.mapError BodyError.invalid = y.mapError BodyError.invalid ↔ x = y := by
  cases x <;> cases y <;> simp [Except.mapError]

/-- Two requests under the size limit `m`. -/
private theorem limited_eq_iff {α : Type} {a b m : Nat} {x y : Except String α} :
    (if a > m then .error .tooLarge else x.mapError BodyError.invalid) =
        (if b > m then .error .tooLarge else y.mapError BodyError.invalid) ↔
      (b ≤ m ↔ a ≤ m) ∧ (b ≤ m → x = y) := by
  simp only [gt_iff_lt, ← Nat.not_lt]
  by_cases ha : m < a <;> by_cases hb : m < b <;> simp [ha, hb, mapError_invalid_inj]
  · cases y <;> exact fun heq => nomatch heq
  · cases x <;> exact fun heq => nomatch heq

section

variable (h : parse body = some (.obj ms))
include h

theorem disableStreaming_of_mem (hkey : streamKey ∈ (keyed ms).map Prod.fst) :
    disableStreaming body = (Json.obj (written (rewritten (keyed ms)))).print := by
  obtain ⟨v, hv⟩ := SortedMap.exists_mem_ofList hkey
  have hany : ((ofList (keyed ms)).any fun e => e.1 = ofString "stream") = true :=
    List.any_eq_true.mpr ⟨_, hv, decide_eq_true rfl⟩
  simp only [disableStreaming, h]
  exact if_pos hany

theorem disableStreaming_of_not_mem (hkey : streamKey ∉ (keyed ms).map Prod.fst) :
    disableStreaming body = body := by
  have hany : ((ofList (keyed ms)).any fun e => e.1 = ofString "stream") ≠ true := by
    intro hany
    obtain ⟨e, he, heq⟩ := List.any_eq_true.mp hany
    refine hkey (mem_map.mpr ⟨e, mem_ofList he, ?_⟩)
    exact of_decide_eq_true heq
  simp only [disableStreaming, h]
  exact if_neg hany

theorem lit_of_mem_rewritten {e : Bytes × Json} (he : e ∈ rewritten (keyed ms)) :
    Json.Lit (Json.maxNestingDepth - 1) e.2 := by
  cases Json.lit_of_parse h with
  | obj _ hvalues =>
    rcases mem_insert he with rfl | he
    · exact .bool _ _
    · obtain ⟨m, hm, rfl⟩ := mem_map.mp (mem_ofList he)
      exact hvalues m hm

theorem lit_written :
    Json.Lit Json.maxNestingDepth (.obj (written (rewritten (keyed ms)))) := by
  refine .obj (fun m hm => ?_) (fun m hm => ?_)
  · obtain ⟨e, _, rfl⟩ := mem_map.mp hm
    exact Json.isRaw_quote true e.1
  · obtain ⟨e, he, rfl⟩ := mem_map.mp hm
    exact (lit_of_mem_rewritten h he).mapStr fun raw => Json.isRaw_escapeRaw

/-- The keys are read back as they were. -/
theorem keyed_written :
    keyed (written (rewritten (keyed ms))) =
      (rewritten (keyed ms)).map fun e => (e.1, e.2.mapStr escapeRaw) := by
  have hutf8 : ∀ e ∈ rewritten (keyed ms), isUtf8 e.1 = true := by
    intro e he
    rcases mem_insert he with rfl | he
    · exact (by decide : isUtf8 streamKey = true)
    · obtain ⟨m, hm, rfl⟩ := mem_map.mp (mem_ofList he)
      cases Json.lit_of_parse h with
      | obj hkeys _ => exact Json.isUtf8_unquoted (hkeys m hm)
  rw [keyed, written, List.map_map]
  refine List.map_congr_left fun e he => ?_
  simp [Json.unquoted_quote true (hutf8 e he)]

/-! ## When the request is kept -/

/-- The request of a dispatched body that has a `stream`. -/
theorem decode_rewritten (hkey : streamKey ∈ (keyed ms).map Prod.fst) :
    T.decodeJSONBody (disableStreaming body) =
      if writtenSize (otherKeys (keyed ms)) + 16 > maxDecodeBodyBytes then .error .tooLarge
      else (T.struct.decode ((rewritten (keyed ms)).map
          fun e => (e.1, e.2.mapStr escapeRaw))).mapError .invalid := by
  rw [disableStreaming_of_mem h hkey, decodeJSONBody, length_written,
    Json.parse_print (lit_written h)]
  simp [keyed_written h]

/-- The rewritten members decode like the members with streaming off under the condition on
    errors and fields. -/
theorem decode_rewritten_eq_iff :
    T.struct.decode ((rewritten (keyed ms)).map fun e => (e.1, e.2.mapStr escapeRaw)) =
        T.struct.decode (streamingOff (keyed ms)) ↔
      T.struct.firstError (otherKeys (keyed ms)) =
          T.struct.firstError (streamingOff (keyed ms)) ∧
        (T.struct.firstError (streamingOff (keyed ms)) = none →
          (∀ f : T.Field, T.struct.stored (some f) (otherKeys (keyed ms)) =
            T.struct.stored (some f) (keyed ms)) ∧
          T.streamFlag ((otherKeys (keyed ms)).filter fun e => streamKey < e.1) = false) := by
  have hstored : ∀ f, T.struct.stored f ((rewritten (keyed ms)).map
      fun e => (e.1, e.2.mapStr escapeRaw)) = T.struct.stored f (rewritten (keyed ms)) := fun f =>
    T.struct.stored_map fun e he old => T.store_escape f old (lit_of_mem_rewritten h he)
  rw [decode_eq_iff,
    T.struct.firstError_map fun e he f => T.mismatch_escape f (lit_of_mem_rewritten h he),
    firstError_rewritten]
  simp only [hstored]
  have hflag := streamFlag_streamingOff T (keyed ms)
  have hrewritten := streamFlag_rewritten T (keyed ms)
  refine and_congr_right fun _ => imp_congr_right fun _ => ?_
  constructor
  · intro hall
    refine ⟨fun f => ?_, hrewritten.symm.trans ((hall none).trans hflag)⟩
    rw [← stored_rewritten, hall (some f), stored_streamingOff]
  · rintro ⟨hsome, hnone⟩ f
    cases f with
    | some f => rw [stored_rewritten, stored_streamingOff, hsome f]
    | none => exact hrewritten.trans (hnone.trans hflag.symm)

theorem decode_disabled_eq_iff :
    T.decodeJSONBody (disableStreaming body) = T.decodeStreamingOff body ↔
      T.KeepsRequest body (keyed ms) := by
  unfold KeepsRequest
  by_cases hkey : streamKey ∈ (keyed ms).map Prod.fst
  · simp only [hkey, true_imp_iff, not_true_eq_false, false_imp_iff, and_true]
    rw [decode_rewritten T h hkey, ← decode_rewritten_eq_iff T h]
    simp only [decodeStreamingOff, h]
    -- rewriting may move the body to the other side of the size limit
    exact limited_eq_iff
  · simp only [hkey, false_imp_iff, not_false_eq_true, true_imp_iff, true_and]
    -- without a `stream` key the body is left as it is
    rw [disableStreaming_of_not_mem h hkey]
    simp only [decodeJSONBody, decodeStreamingOff, h]
    rw [limited_eq_iff, decode_eq_iff, iff_self, true_and]
    have hfields : (∀ f, T.struct.stored f (keyed ms) =
        T.struct.stored f (streamingOff (keyed ms))) ↔ T.streamFlag (keyed ms) = false := by
      have hflag := streamFlag_streamingOff T (keyed ms)
      constructor
      · intro hall
        exact (hall none).trans hflag
      · intro hnone f
        cases f with
        | some f => rw [stored_streamingOff]
        | none => exact hnone.trans hflag.symm
    rw [hfields]

/-- With streaming off no request streams. -/
theorem streams_decodeStreamingOff {st : T.struct.State}
    (hst : T.decodeStreamingOff body = .ok st) : T.streams st = false := by
  simp only [decodeStreamingOff, h] at hst
  split at hst
  · cases hst
  · cases herr : T.struct.firstError (streamingOff (keyed ms)) with
    | some err =>
      rw [T.struct.decode_of_error herr] at hst
      cases hst
    | none =>
      rw [T.struct.decode_of_none herr] at hst
      rw [← Except.ok.inj hst]
      exact streamFlag_streamingOff T (keyed ms)

end

/-! ## Ordinary bodies -/

theorem stored_otherKeys {l : List (Bytes × Json)} (honce : T.struct.NamedOnce l)
    (f : T.Field) : T.struct.stored (some f) (otherKeys l) = T.struct.stored (some f) l := by
  have hnodup : (otherKeys l).Nodup :=
    ((sorted_ofList l).imp fun hlt heq => absurd (heq ▸ hlt) (lt_irrefl _)).filter _
  have hsub : otherKeys l ⊆ l := fun e he => mem_ofList (mem_filter.mp he).1
  rw [stored, honce.values_eq hnodup hsub, stored]
  intro m hm hnamed
  have hunique : ∀ m' ∈ l, m'.1 = m.1 → m' = m := fun m' hm' hkey =>
    honce.eq_of_named hm' hm (hkey ▸ hnamed) hnamed
  have hne : m.1 ≠ streamKey := by
    intro hkey
    rw [hkey, named_streamKey] at hnamed
    cases Option.some.inj hnamed
  exact mem_filter.mpr ⟨SortedMap.mem_ofList_of_unique hm hunique, by simpa using hne⟩

/-- A body of moderate size whose values fit, that names no field twice and spells `stream`
    as it is keeps its request. -/
theorem keepsRequest_of_namedOnce {l : List (Bytes × Json)}
    (hsize : body.length ≤ maxDecodeBodyBytes)
    (hwritten : writtenSize (otherKeys l) + 16 ≤ maxDecodeBodyBytes)
    (hfit : T.struct.firstError (streamingOff l) = none) (honce : T.struct.NamedOnce l)
    (hspelled : ∀ m ∈ l, namesStream m.1 = true → m.1 = streamKey) : T.KeepsRequest body l := by
  constructor
  · intro _
    refine ⟨⟨fun _ => hwritten, fun _ => hsize⟩, fun _ => ⟨?_, fun _ => ⟨fun f => ?_, ?_⟩⟩⟩
    · rw [hfit, StructType.firstError_eq_none_iff]
      intro e he
      obtain ⟨hmem, hkey⟩ := mem_filter.mp he
      have hl := mem_ofList hmem
      have hstream : ¬ namesStream e.1 = true := fun hnames =>
        of_decide_eq_true hkey (hspelled e hl hnames)
      exact (StructType.firstError_eq_none_iff _ _).mp hfit e
        (mem_map.mpr ⟨e, hl, if_neg hstream⟩)
    · exact stored_otherKeys T honce f
    · have hnone : T.struct.values none ((otherKeys l).filter fun e => streamKey < e.1) = [] := by
        unfold values
        rw [List.map_eq_nil_iff, List.filter_eq_nil_iff]
        intro e he hnamed
        obtain ⟨hother, hlt⟩ := mem_filter.mp he
        have hl := mem_ofList (mem_filter.mp hother).1
        have hkey := hspelled e hl
          (namesStream_of_named T (by simpa only [decide_eq_true_eq] using hnamed))
        rw [hkey] at hlt
        exact absurd (of_decide_eq_true hlt) (lt_irrefl _)
      show T.struct.stored none _ = false
      rw [stored, hnone]
      rfl
  · intro hkey
    -- no key is a spelling of `stream`, so nothing is changed
    have hoff : streamingOff l = l := by
      refine (List.map_congr_left fun m hm => ?_).trans (List.map_id l)
      refine if_neg fun hnames => hkey (mem_map.mpr ⟨m, hm, hspelled m hm hnames⟩)
    have hflag := streamFlag_streamingOff T l
    rw [hoff] at hflag ⊢
    exact fun _ => ⟨rfl, fun _ => hflag⟩

/-! ## All bodies -/

/-- A body is batched as it is asked iff it keeps its request. -/
theorem batchedAsAsked_iff {body : Bytes} {ms : List (Bytes × Json)}
    (h : parse body = some (.obj ms)) :
    T.BatchedAsAsked body ↔ T.KeepsRequest body (keyed ms) := by
  rw [← decode_disabled_eq_iff T h]
  constructor
  · rintro ⟨_, hserve⟩
    by_contra hne
    classical
    -- an endpoint that tells the two requests apart
    have hstatus := congrArg (fun out : Unit × Int × Bytes => out.2.1)
      (hserve (fun _ req => ((), if req = T.decodeStreamingOff body then ⟨200, []⟩ else ⟨400, []⟩))
        ())
    simp only [dispatch, handler, if_neg hne, if_true, Recorded.capture] at hstatus
    exact absurd hstatus (by decide)
  · intro heq
    refine ⟨fun st hst => streams_decodeStreamingOff T h (heq ▸ hst), fun serve s => ?_⟩
    simp only [dispatch, handler, heq]

end RequestType

/-! ## Two bodies -/

/-- An agent that answers every message. -/
def greeterDefs : Definitions := fun _ =>
  { metadata := { name := "greeter" }, spec := { model := "gpt-4o" } }

def greeter : Engine plainHost :=
  .newEngine (AgentRegistry.newAgentRegistry.register greeterDefs .stored (some 0))
    (.newMemoryStore 60)

def asciiText (s : Bytes) : String := String.ofList (s.map fun b => Char.ofNat b.toNat)

/-- Decoding of a model and of messages that are plain texts. -/
def plainCodec : FieldCodec ChatField.Val where
  mismatch f v :=
    match f, v.value with
    | .model, .str _ | .model, .null | .messages, .arr _ | .messages, .null => none
    | .model, _ => some "json: cannot unmarshal into Go struct field of type string"
    | .messages, _ => some "json: cannot unmarshal into Go struct field of type []OpenAIMessage"
    | _, _ => none
  store f old v :=
    match f, old, v.value with
    | .model, _, .str s => asciiText s
    | .messages, _, .arr items => items.map fun m =>
        ⟨asciiText (m.textField "role"), .text (asciiText (m.textField "content"))⟩
    | _, old, _ => old
  streamMismatch := fun _ => "json: cannot unmarshal into Go struct field of type bool"
  syntaxError := fun _ => "unexpected end of JSON input"
  valueMismatch := fun _ => "json: cannot unmarshal into Go value"
  mismatch_escape f _ _ hv := by
    simp only [hv.value_mapStr fun _ => Json.unquoted_escapeRaw]
  store_escape f old _ _ hv := by
    simp only [hv.value_mapStr fun _ => Json.unquoted_escapeRaw]
  streamMismatch_escape _ := rfl

def greeting (streamSpelling : String) : Bytes :=
  ofString ("\x7b\"model\":\"gpt-4o\",\"messages\":[\x7b\"role\":\"user\"," ++
    "\"content\":\"hi\"\x7d],\"" ++ streamSpelling ++ "\":true\x7d")

/-- The surroundings of the greetings. -/
def plainSub : SubRequest plainHost := { env := plainEnv }

def plainChatLib : ChatLib where
  quote := fun s => s
  marshal := fun _ => []
  streaming := fun _ => none
  synthesize := fun _ => ""

def contentText : HttpAnswer ChatBody → Bytes
  | .json _ (.completion resp) => 34 :: (resp.content.getD [] ++ [34])
  | _ => ofString "\x7b\x7d"

def bodyMembers (body : Bytes) : Option (List (Bytes × Json)) :=
  match parse body with
  | some (.obj ms) => some ms
  | _ => none

private theorem parse_of_bodyMembers {body : Bytes} (h : (bodyMembers body).isSome = true) :
    parse body = some (.obj ((bodyMembers body).getD [])) := by
  unfold bodyMembers at h ⊢
  split at h
  · rename_i ms hparse
    simp [hparse]
  · cases h

def greetingMembers : List (Bytes × Json) := (bodyMembers (greeting "stream")).getD []

/-- The greeting is an object that fits the request, names each field once and spells `stream`
    as it is. -/
private theorem greetingMembers_facts : (bodyMembers (greeting "stream")).isSome = true ∧
    (greeting "stream").length ≤ maxDecodeBodyBytes ∧
    RequestType.writtenSize (RequestType.otherKeys (RequestType.keyed greetingMembers)) + 16 ≤
      maxDecodeBodyBytes ∧
    (chatType plainCodec).struct.firstError
      (RequestType.streamingOff (RequestType.keyed greetingMembers)) = none ∧
    (chatType plainCodec).struct.NamedOnce (RequestType.keyed greetingMembers) ∧
    ∀ m ∈ RequestType.keyed greetingMembers,
      RequestType.namesStream m.1 = true → m.1 = RequestType.streamKey := by
  decide +kernel

/-- A greeting with `stream` on is batched as it is asked. -/
theorem greeting_batched : (chatType plainCodec).BatchedAsAsked (greeting "stream") :=
  have ⟨hparse, hlength, hsize, hfit, honce, hspelled⟩ := greetingMembers_facts
  ((chatType plainCodec).batchedAsAsked_iff (parse_of_bodyMembers hparse)).mpr
    (RequestType.keepsRequest_of_namedOnce _ hlength hsize hfit honce hspelled)

/-- A greeting with `Stream` on still streams, and an empty success is captured in place of
    the answer. -/
theorem shoutedGreeting_not_batched :
    (dispatch ((chatType plainCodec).handler
        (chatEndpoint plainChatLib greeterDefs plainSub plainCodec contentText)) greeter
        (greeting "Stream")).2 = (200, ofString "null") ∧
      (chatEndpoint plainChatLib greeterDefs plainSub plainCodec contentText greeter
        ((chatType plainCodec).decodeStreamingOff (greeting "Stream"))).2.capture =
          (200, ofString "\"Mock response from greeter\"") ∧
      ¬ (chatType plainCodec).BatchedAsAsked (greeting "Stream") := by
  refine ⟨by decide +kernel, by decide +kernel, fun hkept => ?_⟩
  have hsame := congrArg Prod.snd (hkept.2
    (chatEndpoint plainChatLib greeterDefs plainSub plainCodec contentText) greeter)
  exact absurd hsame (by decide +kernel)

end MockAgents

