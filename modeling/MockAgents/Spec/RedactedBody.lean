import MockAgents.Spec.MaskedSecrets

/-!
# Redacted bodies

Masking keeps valid strings valid, so a redacted JSON body is the text of the value in which
every string leaf is masked. Keys, numbers and the shape of the value stay.
-/

namespace MockAgents

open Bytes (Seg segs isUtf8)
open Json (Lit IsValue decodeWith decodeItems decodeMembers quote)

/-! ## Masked strings -/

theorem isUtf8_ascii_append {a : Bytes} (ha : ∀ b ∈ a, b.toNat < 0x80) (rest : Bytes) :
    isUtf8 (a ++ rest) = isUtf8 rest := by
  induction a with
  | nil => rfl
  | cons b a ih =>
    rw [List.cons_append, Bytes.isUtf8_cons (ha b (by simp)), ih fun x hx => ha x (by simp [hx])]

variable {s : Bytes}

/-- A delimiter is ASCII, so what starts with one is cut on its own. -/
theorem isUtf8_of_suffix {t : Bytes} (h : isUtf8 s = true) (hsuffix : t <:+ s)
    (hhead : ∀ b ∈ t.head?, isDelim b = true) : isUtf8 t = true := by
  obtain ⟨u, rfl⟩ := hsuffix
  cases t with
  | nil => rfl
  | cons d t =>
    have hdelim : isDelim d = true := hhead d rfl
    have hd : d.toNat < 0x80 := by
      simp only [isDelim, Bool.or_eq_true, beq_iff_eq] at hdelim
      rcases hdelim with (rfl | rfl) | rfl <;> decide
    rw [Bytes.isUtf8_append_cons hd, Bool.and_eq_true] at h
    rw [Bytes.isUtf8_cons hd]
    exact h.2

theorem isUtf8_sanitizeFor {pattern : Bytes} (hne : pattern ≠ [])
    (hascii : ∀ b ∈ pattern, b.toNat < 0x80) (fuel : Nat) (h : isUtf8 s = true) :
    isUtf8 (sanitizeFor pattern fuel s) = true := by
  induction fuel generalizing s with
  | zero => exact h
  | succ fuel ih =>
    unfold sanitizeFor
    split
    · exact h
    · rename_i before rest hcut
      obtain ⟨p, ps, rfl⟩ := List.exists_cons_of_ne_nil hne
      have hps : ∀ b ∈ ps, b.toNat < 0x80 := fun b hb => hascii b (by simp [hb])
      rw [Bytes.eq_of_cut hcut, List.append_assoc, List.cons_append,
        Bytes.isUtf8_append_cons (hascii p (by simp)), isUtf8_ascii_append hps,
        Bool.and_eq_true] at h
      have hstars : ∀ b ∈ stars, b.toNat < 0x80 := by decide +kernel
      have hafter := isUtf8_of_suffix h.2 (after_spec rest).1 (after_spec rest).2
      simp only [List.append_assoc, List.cons_append]
      rw [Bytes.isUtf8_append_cons (hascii p (by simp)), isUtf8_ascii_append hps,
        isUtf8_ascii_append hstars, h.1, ih hafter]
      rfl

theorem isUtf8_sanitizeBody (h : isUtf8 s = true) : isUtf8 (sanitizeBody s) = true := by
  refine isUtf8_sanitizeFor (by decide +kernel) (by decide +kernel) _ ?_
  refine isUtf8_sanitizeFor (by decide +kernel) (by decide +kernel) _ ?_
  exact isUtf8_sanitizeFor (by decide +kernel) (by decide +kernel) _ h

theorem mem_of_afterMatch {pattern : List Piece} {l rest : List Seg}
    (h : afterMatch pattern l = some rest) {x : Seg} (hx : x ∈ rest) : x ∈ l := by
  induction pattern generalizing l with
  | nil =>
    cases h
    exact hx
  | cons p ps ih =>
    obtain ⟨l', hl', hrest⟩ := Option.bind_eq_some_iff.mp h
    have hmem := ih hrest
    simp only [Piece.after] at hl'
    split at hl'
    · cases hl'
    · rw [← Option.some.inj hl'] at hmem
      exact List.mem_of_mem_drop hmem

theorem isUtf8_replaceSegs (pattern : List Piece) (fuel : Nat) {l : List Seg}
    (h : ∀ x ∈ l, isUtf8 x.bytes = true) : isUtf8 (replaceSegs pattern fuel l) = true := by
  induction fuel generalizing l with
  | zero =>
    rw [replaceSegs]
    induction l with
    | nil => rfl
    | cons x l ih =>
      exact Bytes.isUtf8_append (h x (by simp)) (ih fun y hy => h y (by simp [hy]))
  | succ fuel ih =>
    cases l with
    | nil => rfl
    | cons x l =>
      unfold replaceSegs
      split
      · rename_i rest hmatch
        have hstars : isUtf8 stars = true := by decide
        exact Bytes.isUtf8_append hstars (ih fun y hy => h y (mem_of_afterMatch hmatch hy))
      · exact Bytes.isUtf8_append (h x (by simp)) (ih fun y hy => h y (by simp [hy]))

theorem isUtf8_replaceAll (pattern : List Piece) (h : isUtf8 s = true) :
    isUtf8 (replaceAll pattern s) = true :=
  isUtf8_replaceSegs pattern _ fun _ => Bytes.isUtf8_of_mem_segs h

/-- Masking keeps valid strings valid. -/
theorem Redactor.isUtf8_redactString (r : Redactor) (h : isUtf8 s = true) :
    isUtf8 (r.redactString s) = true := by
  have hfold : ∀ (l : List (List Piece)) {s : Bytes}, isUtf8 s = true →
      isUtf8 (l.foldl (fun out p => replaceAll p out) s) = true := by
    intro l
    induction l with
    | nil => exact fun h => h
    | cons p l ih => exact fun h => ih (isUtf8_replaceAll p h)
  have hpatterns : ∀ (l : List Pattern) {s : Bytes}, isUtf8 s = true →
      isUtf8 (l.foldl (fun out p => p.replace out) s) = true := by
    intro l
    induction l with
    | nil => exact fun h => h
    | cons p l ih => exact fun h => ih (p.isUtf8_replace _ h)
  exact hpatterns _ (hfold _ (isUtf8_sanitizeBody h))

/-! ## Masked values -/

mutual

def leaves : Json → List Bytes
  | .null => []
  | .bool _ => []
  | .num _ => []
  | .str s => [s]
  | .arr items => leavesItems items
  | .obj members => leavesMembers members

def leavesItems : List Json → List Bytes
  | [] => []
  | v :: vs => leaves v ++ leavesItems vs

def leavesMembers : List (Bytes × Json) → List Bytes
  | [] => []
  | (_, v) :: ms => leaves v ++ leavesMembers ms

end

mutual

theorem mapLeaves_eq_self_iff (f : Bytes → Bytes) :
    (v : Json) → (mapLeaves f v = v ↔ ∀ s ∈ leaves v, f s = s)
  | .null => by simp [mapLeaves, leaves]
  | .bool _ => by simp [mapLeaves, leaves]
  | .num _ => by simp [mapLeaves, leaves]
  | .str _ => by simp [mapLeaves, leaves]
  | .arr items => by
    rw [mapLeaves, leaves, Json.arr.injEq]
    exact mapLeavesItems_eq_self_iff f items
  | .obj members => by
    rw [mapLeaves, leaves, Json.obj.injEq]
    exact mapLeavesMembers_eq_self_iff f members

theorem mapLeavesItems_eq_self_iff (f : Bytes → Bytes) :
    (vs : List Json) → (mapLeavesItems f vs = vs ↔ ∀ s ∈ leavesItems vs, f s = s)
  | [] => by simp [mapLeavesItems, leavesItems]
  | v :: vs => by
    rw [mapLeavesItems, leavesItems, List.cons.injEq, mapLeaves_eq_self_iff f v,
      mapLeavesItems_eq_self_iff f vs, List.forall_mem_append]

theorem mapLeavesMembers_eq_self_iff (f : Bytes → Bytes) :
    (ms : List (Bytes × Json)) → (mapLeavesMembers f ms = ms ↔ ∀ s ∈ leavesMembers ms, f s = s)
  | [] => by simp [mapLeavesMembers, leavesMembers]
  | (key, v) :: ms => by
    rw [mapLeavesMembers, leavesMembers, List.cons.injEq, Prod.mk.injEq, eq_self, true_and,
      mapLeaves_eq_self_iff f v, mapLeavesMembers_eq_self_iff f ms, List.forall_mem_append]

end

theorem mapLeavesItems_eq (f : Bytes → Bytes) (vs : List Json) :
    mapLeavesItems f vs = vs.map (mapLeaves f) := by
  induction vs with
  | nil => rfl
  | cons v vs ih => rw [mapLeavesItems, ih, List.map_cons]

theorem mapLeavesMembers_eq (f : Bytes → Bytes) (ms : List (Bytes × Json)) :
    mapLeavesMembers f ms = ms.map fun e => (e.1, mapLeaves f e.2) := by
  induction ms with
  | nil => rfl
  | cons e ms ih => rw [mapLeavesMembers, ih, List.map_cons]

/-- The masked value `w`, encoded and decoded again, is the masked value `v`. -/
def Remade (number : Bytes → Option Bytes) (f : Bytes → Bytes) (w v : Json) : Prop :=
  decodeWith number ((mapLeaves f w).mapStr (quote false)) = some (mapLeaves f v)

section

variable {number : Bytes → Option Bytes} {f : Bytes → Bytes}

/-- Masked values are values. -/
theorem isValue_mapLeaves (hf : ∀ s, isUtf8 s = true → isUtf8 (f s) = true) {d : Nat} {v : Json}
    (h : IsValue number d v) :
    IsValue number d (mapLeaves f v) := by
  induction h with
  | null d => exact .null d
  | bool d b => exact .bool d b
  | num d hnum hfix => exact .num d hnum hfix
  | str d hs => exact .str d (hf _ hs)
  | arr _ ih =>
    rw [mapLeaves, mapLeavesItems_eq]
    refine .arr fun v hv => ?_
    obtain ⟨u, hu, rfl⟩ := List.mem_map.mp hv
    exact ih u hu
  | obj hsorted hkeys _ ih =>
    rw [mapLeaves, mapLeavesMembers_eq]
    refine .obj (hsorted.map (mapLeaves f)) (fun m hm => ?_) (fun m hm => ?_)
    · obtain ⟨u, hu, rfl⟩ := List.mem_map.mp hm
      exact hkeys u hu
    · obtain ⟨u, hu, rfl⟩ := List.mem_map.mp hm
      exact ih u hu

theorem remade_of_decodeItems {ts vs : List Json} (h : decodeItems number ts = some vs)
    (ih : ∀ t ∈ ts, ∀ v, decodeWith number t = some v →
      ∃ w, decodeWith some t = some w ∧ Remade number f w v) :
    ∃ zs : List (Json × Json), vs = zs.map (·.2) ∧ decodeItems some ts = some (zs.map (·.1)) ∧
      ∀ z ∈ zs, Remade number f z.1 z.2 := by
  induction ts generalizing vs with
  | nil =>
    cases h
    exact ⟨[], rfl, rfl, by simp⟩
  | cons t ts ihts =>
    rw [decodeItems] at h
    split at h
    · rename_i v vs' hv hvs
      cases h
      obtain ⟨w, hw, hremade⟩ := ih t (by simp) v hv
      obtain ⟨zs, rfl, hws, hzs⟩ := ihts hvs fun t' ht' => ih t' (by simp [ht'])
      refine ⟨(w, v) :: zs, rfl, ?_, List.forall_mem_cons.mpr ⟨hremade, hzs⟩⟩
      rw [decodeItems, hw, hws]
      rfl
    · cases h

theorem remade_of_decodeMembers {ms vs : List (Bytes × Json)}
    (h : decodeMembers number ms = some vs) (hkeys : ∀ m ∈ ms, Json.IsRaw m.1)
    (ih : ∀ m ∈ ms, ∀ v, decodeWith number m.2 = some v →
      ∃ w, decodeWith some m.2 = some w ∧ Remade number f w v) :
    ∃ zs : List (Bytes × (Json × Json)), vs = zs.map (fun z => (z.1, z.2.2)) ∧
      decodeMembers some ms = some (zs.map fun z => (z.1, z.2.1)) ∧
      ∀ z ∈ zs, isUtf8 z.1 = true ∧ Remade number f z.2.1 z.2.2 := by
  induction ms generalizing vs with
  | nil =>
    cases h
    exact ⟨[], rfl, rfl, by simp⟩
  | cons m ms ihms =>
    rw [decodeMembers] at h
    split at h
    · rename_i v vs' hv hvs
      cases h
      obtain ⟨w, hw, hremade⟩ := ih m (by simp) v hv
      obtain ⟨zs, rfl, hws, hzs⟩ := ihms hvs (fun m' hm' => hkeys m' (by simp [hm']))
        fun m' hm' => ih m' (by simp [hm'])
      have hkey := Json.isUtf8_unquoted (hkeys m (by simp))
      refine ⟨(Json.unquoted m.1, w, v) :: zs, rfl, ?_,
        List.forall_mem_cons.mpr ⟨⟨hkey, hremade⟩, hzs⟩⟩
      rw [decodeMembers, hw, hws]
      rfl
    · cases h

/-- A body is decoded twice: into `v` by `HashRequest`, and into `w`, which keeps the numbers
    as they are written, by the redactor. -/
theorem remade_of_decodeWith (hf : ∀ s, isUtf8 s = true → isUtf8 (f s) = true) {d : Nat}
    {t v : Json} (ht : Lit d t) (h : decodeWith number t = some v) :
    ∃ w, decodeWith some t = some w ∧ Remade number f w v := by
  induction ht generalizing v with
  | null d | bool d b =>
    cases h
    exact ⟨_, rfl, rfl⟩
  | @num d lit hnum =>
    obtain ⟨t, ht, rfl⟩ := Option.map_eq_some_iff.mp h
    simp [Remade, mapLeaves, Json.mapStr, decodeWith, ht]
  | @str d raw hraw =>
    cases h
    refine ⟨_, rfl, ?_⟩
    simp only [Remade, mapLeaves, Json.mapStr, decodeWith,
      Json.unquoted_quote false (hf _ (Json.isUtf8_unquoted hraw))]
  | arr hitems ih =>
    obtain ⟨vs, hvs, rfl⟩ := Option.map_eq_some_iff.mp h
    obtain ⟨zs, rfl, hws, hzs⟩ := remade_of_decodeItems hvs fun t ht v => ih t ht
    refine ⟨.arr (zs.map (·.1)), by rw [decodeWith, hws]; rfl, ?_⟩
    simp only [Remade, mapLeaves, mapLeavesItems_eq, Json.mapStr, Json.mapStrItems_eq, decodeWith,
      List.map_map, Function.comp_def]
    rw [Json.decodeItems_map hzs, Option.map_some]
  | obj hkeys hmembers ih =>
    obtain ⟨vs, hvs, rfl⟩ := Option.map_eq_some_iff.mp h
    obtain ⟨zs, rfl, hws, hzs⟩ := remade_of_decodeMembers hvs hkeys fun m hm v => ih m hm
    refine ⟨.obj (SortedMap.ofList (zs.map fun z => (z.1, z.2.1))),
      by rw [decodeWith, hws]; rfl, ?_⟩
    -- the two maps have their entries in the same places
    rw [SortedMap.ofList_map Prod.fst, SortedMap.ofList_map Prod.snd]
    have hdecode : decodeMembers number ((SortedMap.ofList zs).map fun z =>
        (quote false z.1, (mapLeaves f z.2.1).mapStr (quote false))) =
        some ((SortedMap.ofList zs).map fun z => (z.1, mapLeaves f z.2.2)) :=
      Json.decodeMembers_map
        (fun z hz => Json.unquoted_quote false (hzs z (SortedMap.mem_ofList hz)).1)
        (fun z hz => (hzs z (SortedMap.mem_ofList hz)).2)
    have hsorted := (SortedMap.sorted_ofList zs).map fun z => mapLeaves f z.2
    simp only [Remade, mapLeaves, mapLeavesMembers_eq, Json.mapStr, Json.mapStrMembers_eq,
      decodeWith, List.map_map, Function.comp_def]
    rw [hdecode, Option.map_some, SortedMap.ofList_of_sorted hsorted]

end

/-! ## Masked bodies -/

theorem decodeFirst_of_parse {t : Json} (h : Json.parse s = some t) :
    Json.decodeFirst s = decodeWith some t := by
  unfold Json.parse at h
  split at h
  · cases h
  · rename_i t' r hvalue
    split at h
    · cases h
      rw [Json.decodeFirst, hvalue]
      rfl
    · cases h

theorem Redactor.unmarshal_redactBody (r : Redactor) {body : Bytes} {v : Json}
    (h : Json.unmarshal body = some v) (hmasked : r.redactString body ≠ body) :
    Json.unmarshal (r.redactBody body) = some (mapLeaves r.redactString v) := by
  have hf : ∀ s, isUtf8 s = true → isUtf8 (r.redactString s) = true :=
    fun s => r.isUtf8_redactString
  obtain ⟨t, ht, hv⟩ := Option.bind_eq_some_iff.mp h
  have hlit := Json.lit_of_parse ht
  obtain ⟨w, hw, hremade⟩ := remade_of_decodeWith hf hlit hv
  have hvalue : IsValue some Json.maxNestingDepth w :=
    Json.isValue_of_decodeWith (fun lit t hnum heq => by
      cases heq
      exact ⟨hnum, rfl⟩) hlit hw
  have hne : body ≠ [] := by
    rintro rfl
    cases ht
  have hbody : r.redactBody body = Json.encode false (mapLeaves r.redactString w) := by
    rw [redactBody, if_neg hne, if_neg hmasked, decodeFirst_of_parse ht, hw]
    rfl
  rw [hbody, Json.unmarshal, Json.encode,
    Json.parse_print ((isValue_mapLeaves hf hvalue).writable.lit_quoted false)]
  exact hremade

end MockAgents
