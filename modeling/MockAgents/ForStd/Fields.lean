import MockAgents.ForStd.Utf8

/-!
# Words of a string

`strings.Fields` and `strings.Join`. Joining the words of a string with single spaces gives
the string back iff it was written that way.
-/

namespace Bytes

open List (length_append map_cons mem_cons)

/-- The words of a list of segments: a segment that is no space starts a word or extends
    the word after it. -/
def fieldSegs : List Seg → List (List Seg)
  | [] => []
  | x :: l =>
    if x.isSpace then fieldSegs l
    else
      match l.head?.any (fun y => !y.isSpace), fieldSegs l with
      | true, w :: ws => (x :: w) :: ws
      | _, ws => [x] :: ws

def ofSegs (l : List Seg) : Bytes := l.flatMap Seg.bytes

def fields (s : Bytes) : List Bytes := (fieldSegs (segs s)).map ofSegs

def join (sep : Bytes) (l : List Bytes) : Bytes := sep.intercalate l

/-- One space between each two words and nothing else around them. `word` says that a word
    stands in front. -/
def isSpaced : (word : Bool) → List Seg → Bool
  | word, [] => word
  | word, x :: l =>
    if x.isSpace then word && x == .ascii 32 && isSpaced false l else isSpaced true l

/-- White space only, or words with one space between each two of them and nothing around
    them. -/
def isSingleSpaced (s : Bytes) : Bool := (segs s).all Seg.isSpace || isSpaced false (segs s)

/-! ## One segment at a time -/

/-- The words of the segments, joined with spaces. -/
def joinSegs (l : List Seg) : Bytes := join [32] ((fieldSegs l).map ofSegs)

@[simp] theorem join_nil (sep : Bytes) : join sep [] = [] := by simp [join, List.intercalate]

@[simp] theorem join_singleton (sep w : Bytes) : join sep [w] = w := by
  simp [join, List.intercalate]

theorem join_cons_cons (sep w w' : Bytes) (ws : List Bytes) :
    join sep (w :: w' :: ws) = w ++ sep ++ join sep (w' :: ws) := by
  simp [join, List.intercalate, List.intersperse]

@[simp] theorem ofSegs_cons (x : Seg) (l : List Seg) : ofSegs (x :: l) = x.bytes ++ ofSegs l :=
  List.flatMap_cons

@[simp] theorem fieldSegs_nil : fieldSegs [] = [] := rfl

variable {x : Seg}

theorem fieldSegs_space (hx : x.isSpace = true) (l : List Seg) :
    fieldSegs (x :: l) = fieldSegs l := if_pos hx

theorem fieldSegs_end (hx : x.isSpace = false) : fieldSegs [x] = [[x]] :=
  if_neg (Bool.eq_false_iff.mp hx)

variable {y : Seg}

theorem fieldSegs_break (hx : x.isSpace = false) (hy : y.isSpace = true) (l : List Seg) :
    fieldSegs (x :: y :: l) = [x] :: fieldSegs l := by
  have hany : (y :: l).head?.any (fun y => !y.isSpace) = false := by simp [hy]
  refine (if_neg (Bool.eq_false_iff.mp hx)).trans ?_
  rw [hany, fieldSegs_space hy]

/-- The word that a segment which is no space starts, and the words after it. -/
theorem fieldSegs_cons (hy : y.isSpace = false) (l : List Seg) :
    ∃ w ws, fieldSegs (y :: l) = w :: ws := by
  rw [fieldSegs, if_neg (by simp [hy])]
  split <;> exact ⟨_, _, rfl⟩

variable {l w : List Seg} {ws : List (List Seg)}

theorem fieldSegs_letter (hx : x.isSpace = false) (hy : y.isSpace = false)
    (h : fieldSegs (y :: l) = w :: ws) : fieldSegs (x :: y :: l) = (x :: w) :: ws := by
  have hany : (y :: l).head?.any (fun y => !y.isSpace) = true := by simp [hy]
  refine (if_neg (Bool.eq_false_iff.mp hx)).trans ?_
  rw [hany, h]

theorem joinSegs_space (hx : x.isSpace = true) (l : List Seg) : joinSegs (x :: l) = joinSegs l := by
  rw [joinSegs, fieldSegs_space hx, ← joinSegs]

theorem joinSegs_end (hx : x.isSpace = false) : joinSegs [x] = x.bytes := by
  simp [joinSegs, fieldSegs_end hx, ofSegs]

theorem joinSegs_break (hx : x.isSpace = false) (hy : y.isSpace = true) (hl : fieldSegs l ≠ []) :
    joinSegs (x :: y :: l) = x.bytes ++ 32 :: joinSegs l := by
  obtain ⟨w, ws, hw⟩ := List.exists_cons_of_ne_nil hl
  rw [joinSegs, joinSegs, fieldSegs_break hx hy, hw, map_cons, map_cons, join_cons_cons]
  simp [ofSegs]

theorem joinSegs_break_end (hx : x.isSpace = false) (hy : y.isSpace = true)
    (hl : fieldSegs l = []) : joinSegs (x :: y :: l) = x.bytes := by
  simp [joinSegs, fieldSegs_break hx hy, hl, ofSegs]

theorem joinSegs_letter (hx : x.isSpace = false) (hy : y.isSpace = false) (l : List Seg) :
    joinSegs (x :: y :: l) = x.bytes ++ joinSegs (y :: l) := by
  obtain ⟨w, ws, hw⟩ := fieldSegs_cons hy l
  rw [joinSegs, joinSegs, fieldSegs_letter hx hy hw, hw, map_cons]
  cases ws with
  | nil => simp
  | cons w' ws => simp [join_cons_cons]

/-! ## Joining the words again -/

/-- A white-space segment has a byte, and only the space itself starts with byte 32. -/
theorem bytes_of_isSpace (h : x.isSpace = true) :
    ∃ b bs, x.bytes = b :: bs ∧ (b = 32 → x = .ascii 32) := by
  cases x with
  | ascii b =>
    refine ⟨b, [], rfl, ?_⟩
    rintro rfl
    rfl
  | rune bs =>
    have hfirst : ∀ bs : Bytes, Seg.isSpace (.rune bs) = true → ∃ b t, bs = b :: t ∧ b ≠ 32 := by
      intro bs hbs
      simp only [Seg.isSpace, decide_eq_true_eq, mem_cons, List.not_mem_nil, or_false] at hbs
      rcases hbs with rfl | rfl | rfl | rfl | rfl | rfl | rfl | rfl | rfl | rfl | rfl | rfl | rfl |
        rfl | rfl | rfl | rfl | rfl | rfl <;> exact ⟨_, _, rfl, by decide⟩
    obtain ⟨b, t, rfl, hb⟩ := hfirst bs h
    exact ⟨b, t, rfl, fun h32 => absurd h32 hb⟩
  | bad b => cases h

/-- Joining never makes a text longer: a space takes the place of one segment at least. -/
theorem length_joinSegs_le : (l : List Seg) → (joinSegs l).length ≤ (ofSegs l).length
  | [] => by simp [joinSegs]
  | [x] => by
    cases hx : x.isSpace with
    | true =>
      rw [joinSegs_space hx]
      exact Nat.zero_le _
    | false => simp [joinSegs_end hx]
  | x :: y :: l => by
    have htail := length_joinSegs_le (y :: l)
    have hrest := length_joinSegs_le l
    rw [ofSegs_cons, length_append]
    cases hx : x.isSpace with
    | true =>
      rw [joinSegs_space hx]
      omega
    | false =>
      cases hy : y.isSpace with
      | false =>
        rw [joinSegs_letter hx hy, length_append]
        omega
      | true =>
        obtain ⟨b, bs, hb, _⟩ := bytes_of_isSpace hy
        by_cases hl : fieldSegs l = []
        · rw [joinSegs_break_end hx hy hl]
          omega
        · rw [joinSegs_break hx hy hl, ofSegs_cons, hb]
          simp only [length_append, List.length_cons]
          omega

theorem isSpaced_letter (hx : x.isSpace = false) (word : Bool) (l : List Seg) :
    isSpaced word (x :: l) = isSpaced true l := by
  rw [isSpaced, if_neg (by simp [hx])]

theorem isSpaced_false_space (hx : x.isSpace = true) (l : List Seg) :
    isSpaced false (x :: l) = false := by
  rw [isSpaced, if_pos hx, Bool.false_and, Bool.false_and]

theorem isSpaced_true_space (hx : x.isSpace = true) (l : List Seg) :
    isSpaced true (x :: l) = (x == .ascii 32 && isSpaced false l) := by
  rw [isSpaced, if_pos hx, Bool.true_and]

/-- Without words there is nothing that a space could stand before. -/
theorem isSpaced_of_fieldSegs_eq_nil (h : fieldSegs l = []) : isSpaced false l = false := by
  cases l with
  | nil => rfl
  | cons x l =>
    cases hx : x.isSpace with
    | true => exact isSpaced_false_space hx l
    | false =>
      obtain ⟨w, ws, hw⟩ := fieldSegs_cons hx l
      rw [hw] at h
      cases h

/-- Joining the words of segments gives their text iff they are spaced. -/
theorem joinSegs_eq_iff :
    (l : List Seg) → (joinSegs l = ofSegs l ↔ l = [] ∨ isSpaced false l = true)
  | [] => by simp [joinSegs, ofSegs]
  | [x] => by
    cases hx : x.isSpace with
    | true =>
      obtain ⟨b, bs, hb, _⟩ := bytes_of_isSpace hx
      rw [joinSegs_space hx, isSpaced_false_space hx, ofSegs_cons, hb]
      simp [joinSegs]
    | false =>
      rw [joinSegs_end hx, isSpaced_letter hx]
      simp [isSpaced, ofSegs]
  | x :: y :: l => by
    have htail := joinSegs_eq_iff (y :: l)
    have hrest := joinSegs_eq_iff l
    simp only [List.cons_ne_nil, false_or] at htail ⊢
    cases hx : x.isSpace with
    | true =>
      -- the text in front of the first word is lost
      obtain ⟨b, bs, hb, _⟩ := bytes_of_isSpace hx
      have hlen := length_joinSegs_le (y :: l)
      rw [joinSegs_space hx, isSpaced_false_space hx]
      simp only [Bool.false_eq_true, iff_false]
      intro heq
      rw [heq, ofSegs_cons x, hb, length_append, List.length_cons] at hlen
      omega
    | false =>
      rw [isSpaced_letter hx, ofSegs_cons]
      cases hy : y.isSpace with
      | false =>
        rw [joinSegs_letter hx hy, List.append_cancel_left_eq, htail, isSpaced_letter hy,
          isSpaced_letter hy]
      | true =>
        obtain ⟨b, bs, hb, hspace⟩ := bytes_of_isSpace hy
        rw [isSpaced_true_space hy]
        by_cases hl : fieldSegs l = []
        · -- the text after the last word is lost
          rw [joinSegs_break_end hx hy hl, isSpaced_of_fieldSegs_eq_nil hl, ofSegs_cons, hb]
          simp
        · have hne : l ≠ [] := by
            rintro rfl
            exact hl rfl
          rw [joinSegs_break hx hy hl, List.append_cancel_left_eq, ofSegs_cons, hb,
            List.cons_append, List.cons.injEq, Bool.and_eq_true, beq_iff_eq]
          constructor
          · rintro ⟨h32, heq⟩
            have hyspace := hspace h32.symm
            rw [hyspace] at hb
            obtain ⟨_, rfl⟩ := List.cons.inj hb
            exact ⟨hyspace, (hrest.mp heq).resolve_left hne⟩
          · rintro ⟨rfl, hspaced⟩
            obtain ⟨rfl, rfl⟩ := List.cons.inj hb
            exact ⟨rfl, hrest.mpr (.inr hspaced)⟩

/-! ## Strings -/

theorem join_fields (s : Bytes) : join [32] (fields s) = joinSegs (segs s) := rfl

theorem ofSegs_segs (s : Bytes) : ofSegs (segs s) = s := flatMap_segs s

theorem length_join_fields_le (s : Bytes) : (join [32] (fields s)).length ≤ s.length := by
  have := length_joinSegs_le (segs s)
  rwa [ofSegs_segs] at this

theorem fieldSegs_eq_nil_iff (l : List Seg) : fieldSegs l = [] ↔ l.all Seg.isSpace = true := by
  induction l with
  | nil => simp
  | cons x l ih =>
    cases hx : x.isSpace with
    | true => rw [fieldSegs_space hx, ih, List.all_cons, hx, Bool.true_and]
    | false =>
      obtain ⟨w, ws, hw⟩ := fieldSegs_cons hx l
      simp [hw, hx]

theorem fields_eq_nil_iff (s : Bytes) : fields s = [] ↔ (segs s).all Seg.isSpace = true := by
  rw [fields, List.map_eq_nil_iff, fieldSegs_eq_nil_iff]

variable {s : Bytes}

theorem join_fields_eq_iff (h : fields s ≠ []) :
    join [32] (fields s) = s ↔ isSingleSpaced s = true := by
  have hne : segs s ≠ [] := by
    intro hnil
    exact h (by rw [fields, hnil]; rfl)
  have hspace : (segs s).all Seg.isSpace = false := by
    rw [Ne, fields_eq_nil_iff] at h
    simpa using h
  have hjoin := joinSegs_eq_iff (segs s)
  rw [ofSegs_segs, or_iff_right hne] at hjoin
  rw [join_fields, hjoin, isSingleSpaced, hspace, Bool.false_or]

/-! ## The words of a valid string -/

theorem mem_fieldSegs (hw : w ∈ fieldSegs l) : w ≠ [] ∧ ∀ x ∈ w, x.isSpace = false ∧ x ∈ l := by
  induction l generalizing w with
  | nil => cases hw
  | cons y l ih =>
    have hmono : ∀ {w : List Seg}, w ∈ fieldSegs l →
        w ≠ [] ∧ ∀ x ∈ w, x.isSpace = false ∧ x ∈ y :: l := by
      intro w hw
      exact ⟨(ih hw).1, fun x hx => ⟨((ih hw).2 x hx).1, .tail y ((ih hw).2 x hx).2⟩⟩
    rw [fieldSegs] at hw
    split at hw
    · exact hmono hw
    · rename_i hy
      have hspace : y.isSpace = false := by simpa using hy
      split at hw
      · rename_i v ws _ hfields
        rcases mem_cons.mp hw with rfl | hw
        · have hv := hmono (show v ∈ fieldSegs l by rw [hfields]; exact .head ws)
          exact ⟨List.cons_ne_nil y v, List.forall_mem_cons.mpr ⟨⟨hspace, .head l⟩, hv.2⟩⟩
        · exact hmono (by rw [hfields]; exact .tail v hw)
      · rcases mem_cons.mp hw with rfl | hw
        · exact ⟨List.cons_ne_nil y [], by simpa using hspace⟩
        · exact hmono hw

/-- A word, up to what ends its last segment. -/
theorem fieldSegs_word {rest : List Seg} (hne : w ≠ []) (hw : ∀ x ∈ w, x.isSpace = false)
    (hend : ∀ x : Seg, x.isSpace = false → fieldSegs (x :: rest) = [x] :: ws) :
    fieldSegs (w ++ rest) = w :: ws := by
  induction w with
  | nil => exact absurd rfl hne
  | cons x w ih =>
    have hx := hw x (by simp)
    cases w with
    | nil => exact hend x hx
    | cons y w => exact fieldSegs_letter hx (hw y (by simp)) (ih (by simp) fun z hz =>
        hw z (by simp [hz]))

theorem segs_bytes_of_mem (hx : x ∈ segs s) (hvalid : x.isValid = true) : segs x.bytes = [x] := by
  obtain ⟨b, hb, rfl⟩ | ⟨bs, hbs, rfl⟩ | ⟨b, rfl⟩ := mem_segs_cases hx
  · exact segs_ascii hb []
  · have hsegs := segs_rune hbs []
    rwa [List.append_nil] at hsegs
  · cases hvalid

/-- Valid segments that are read as themselves. -/
def IsText (l : List Seg) : Prop := ∀ x ∈ l, x.isValid = true ∧ segs x.bytes = [x]

theorem IsText.isUtf8_head (h : IsText (x :: l)) : Bytes.isUtf8 x.bytes = true := by
  obtain ⟨hvalid, hsegs⟩ := h x (by simp)
  rw [Bytes.isUtf8, hsegs, List.all_cons, hvalid]
  rfl

theorem IsText.isUtf8 {l : List Seg} (h : IsText l) : isUtf8 (ofSegs l) = true := by
  induction l with
  | nil => rfl
  | cons x l ih =>
    rw [ofSegs_cons]
    exact isUtf8_append h.isUtf8_head (ih fun y hy => h y (by simp [hy]))

theorem IsText.segs_append_ofSegs (h : IsText l) (rest : Bytes) :
    segs (ofSegs l ++ rest) = l ++ segs rest := by
  induction l with
  | nil => rfl
  | cons x l ih =>
    rw [ofSegs_cons, List.append_assoc, segs_append h.isUtf8_head, (h x (by simp)).2,
      ih fun y hy => h y (by simp [hy])]
    rfl

theorem isText_segs (h : isUtf8 s = true) : IsText (segs s) := fun _ hx =>
  have hvalid := List.all_eq_true.mp h _ hx
  ⟨hvalid, segs_bytes_of_mem hx hvalid⟩

theorem isText_of_mem_fieldSegs (h : isUtf8 s = true) (hw : w ∈ fieldSegs (segs s)) :
    IsText w := fun x hx =>
  isText_segs h x ((mem_fieldSegs hw).2 x hx).2

/-- The words of a valid string are valid. -/
theorem isUtf8_of_mem_fields {w : Bytes} (h : isUtf8 s = true) (hw : w ∈ fields s) :
    isUtf8 w = true := by
  obtain ⟨segments, hmem, rfl⟩ := List.mem_map.mp hw
  exact (isText_of_mem_fieldSegs h hmem).isUtf8

theorem isUtf8_join {ws : List Bytes} (h : ∀ w ∈ ws, isUtf8 w = true) :
    isUtf8 (join [32] ws) = true := by
  induction ws with
  | nil => simp [isUtf8]
  | cons w ws ih =>
    cases ws with
    | nil => simpa using h w (by simp)
    | cons w' ws =>
      rw [join_cons_cons]
      exact isUtf8_append (isUtf8_append (h w (by simp)) (by decide))
        (ih fun x hx => h x (by simp [hx]))

theorem fields_join_ofSegs (h : ∀ w ∈ ws, w ≠ [] ∧ (∀ x ∈ w, x.isSpace = false) ∧ IsText w) :
    fieldSegs (segs (join [32] (ws.map ofSegs))) = ws := by
  induction ws with
  | nil => simp
  | cons w ws ih =>
    obtain ⟨hne, hspace, htext⟩ := h w (by simp)
    cases ws with
    | nil =>
      have hsegs := htext.segs_append_ofSegs []
      rw [List.append_nil] at hsegs
      rw [List.map_singleton, join_singleton, hsegs]
      exact fieldSegs_word hne hspace fun x hx => fieldSegs_end hx
    | cons w' ws =>
      rw [map_cons, map_cons, join_cons_cons, List.append_assoc,
        htext.segs_append_ofSegs, List.singleton_append, segs_ascii (by decide),
        fieldSegs_word hne hspace fun x hx => fieldSegs_break hx rfl _, ← map_cons,
        ih fun v hv => h v (by simp [hv])]

theorem fields_join_fields (h : isUtf8 s = true) : fields (join [32] (fields s)) = fields s := by
  have hwords : fieldSegs (segs (join [32] ((fieldSegs (segs s)).map ofSegs))) =
      fieldSegs (segs s) := fields_join_ofSegs fun w hw =>
    ⟨(mem_fieldSegs hw).1, fun x hx => ((mem_fieldSegs hw).2 x hx).1,
      isText_of_mem_fieldSegs h hw⟩
  exact congrArg (List.map ofSegs) hwords

end Bytes
