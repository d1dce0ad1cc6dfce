import MockAgents.ForStd.JsonValue
import MockAgents.ForStd.Utf8Cut

/-!
# Writing and reading JSON messages

The text of a JSON tree whose strings are any Go strings, and what a client that parses it
gets: the tree with U+FFFD for the bytes that are not UTF-8. The members of an object that
a program writes have texts as their keys, and the client looks them up by key.
-/

namespace Json

open Bytes (ofString toValid)

/-! ## Reading a text -/

/-- The tree that a client reads from a text. -/
def decode (s : Bytes) : Option Json := (parse s).map value

variable {d : Nat} {v : Json}

theorem Writable.mono {d' : Nat} (hle : d ≤ d') (h : Writable d v) : Writable d' v := by
  induction h generalizing d' with
  | null => exact .null d'
  | bool _ b => exact .bool d' b
  | num _ hnum => exact .num d' hnum
  | str _ s => exact .str d' s
  | arr _ ih =>
    obtain ⟨e, rfl⟩ : ∃ e, d' = e + 1 := ⟨d' - 1, by omega⟩
    exact .arr fun v hv => ih v hv (by omega)
  | obj _ ih =>
    obtain ⟨e, rfl⟩ : ∃ e, d' = e + 1 := ⟨d' - 1, by omega⟩
    exact .obj fun m hm => ih m hm (by omega)

variable (html : Bool) (key : String) (l : List (String × Json)) (s : Bytes)

theorem unquoted_quote_toValid : unquoted (quote html s) = toValid s := by
  rw [unquoted, unquote_quote, Option.getD_some]

theorem Writable.value_quoted (h : Writable d v) (html : Bool) :
    (v.mapStr (quote html)).value = v.mapStr toValid := by
  induction h with
  | null | bool | num => rfl
  | str d s => exact congrArg Json.str (unquoted_quote_toValid html s)
  | arr _ ih =>
    simp only [value, mapStr, mapStrItems_eq, List.map_map] at ih ⊢
    exact congrArg Json.arr (List.map_congr_left ih)
  | obj _ ih =>
    simp only [value, mapStr, mapStrMembers_eq, List.map_map] at ih ⊢
    refine congrArg Json.obj (List.map_congr_left fun m hm => ?_)
    exact Prod.ext (unquoted_quote_toValid html m.1) (ih m hm)

/-- A client gets the tree back, with U+FFFD for the bytes that are not UTF-8. -/
theorem decode_encode (h : Writable maxNestingDepth v) (html : Bool) :
    decode (encode html v) = some (v.mapStr toValid) := by
  rw [decode, encode, parse_print (h.lit_quoted html), Option.map_some, h.value_quoted]

/-- There is no line break in the text of a tree. -/
theorem Writable.not_mem_encode (h : Writable d v) (html : Bool) : 10 ∉ encode html v := by
  intro hmem
  have hle := (h.lit_quoted html).le_of_mem_print 10 hmem
  exact absurd hle (by decide)

/-! ## Objects -/

def text (s : String) : Json := str (ofString s)

/-- A natural number. -/
def nat (n : Nat) : Json := num (Decimal.natText n)

/-- An integer. -/
def int (i : Int) : Json := num (Decimal.intText i)

def object (members : List (String × Json)) : Json := obj (members.map fun m => (ofString m.1, m.2))

/-- The member of an object, the last one if there are several. -/
def field (key : String) : Json → Option Json
  | obj ms => ((ms.filter fun m => m.1 = ofString key).getLast?).map Prod.snd
  | _ => none

def items : Json → List Json
  | arr l => l
  | _ => []

def text? : Json → Option Bytes
  | str s => some s
  | _ => none

/-- A natural number. -/
def nat? : Json → Option Nat
  | num lit => Decimal.parseNat lit
  | _ => none

/-- A string member, empty if there is none. -/
def textField (key : String) (v : Json) : Bytes := ((v.field key).bind text?).getD []

/-- A member that is left out if the string is empty. -/
def omitEmpty (key : String) (s : Bytes) : List (String × Json) :=
  if s = [] then [] else [(key, str s)]

/-- The members of a written object. -/
theorem field_object :
    (object l).field key = ((l.filter fun m => m.1 = key).getLast?).map Prod.snd := by
  rw [object, field, List.filter_map, List.getLast?_map, Option.map_map]
  simp only [Function.comp_def, Bytes.ofString_inj]

@[simp] theorem mapStr_text (s : String) : (text s).mapStr toValid = text s := by
  rw [text, mapStr, Bytes.toValid_ofString]

@[simp] theorem mapStr_str (f : Bytes → Bytes) (s : Bytes) : (str s).mapStr f = str (f s) := rfl

@[simp] theorem mapStr_nat (f : Bytes → Bytes) (n : Nat) : (nat n).mapStr f = nat n := rfl

@[simp] theorem mapStr_object :
    (object l).mapStr toValid = object (l.map fun m => (m.1, m.2.mapStr toValid)) := by
  rw [object, object, mapStr, mapStrMembers_eq, List.map_map]
  simp

@[simp] theorem mapStr_arr (f : Bytes → Bytes) (l : List Json) :
    (arr l).mapStr f = arr (l.map fun v => v.mapStr f) := by
  rw [mapStr, mapStrItems_eq]

@[simp] theorem text?_str (s : Bytes) : (str s).text? = some s := rfl

@[simp] theorem text?_text (s : String) : (text s).text? = some (ofString s) := rfl

@[simp] theorem nat?_nat (n : Nat) : (nat n).nat? = some n := Decimal.parseNat_natText n

/-! ## Writable objects -/

@[simp] theorem writable_null (d : Nat) : Writable d null := .null d

@[simp] theorem writable_str (d : Nat) (s : Bytes) : Writable d (str s) := .str d s

@[simp] theorem writable_text (d : Nat) (s : String) : Writable d (text s) := .str d _

@[simp] theorem writable_nat (d n : Nat) : Writable d (nat n) :=
  .num d (Decimal.numSteps_natText (.inl rfl) n)

@[simp] theorem writable_int (d : Nat) (i : Int) : Writable d (int i) :=
  .num d (Decimal.isNum_intText i)

@[simp] theorem writable_arr_iff (d : Nat) (l : List Json) :
    Writable (d + 1) (arr l) ↔ ∀ v ∈ l, Writable d v := by
  constructor
  · intro h
    cases h with
    | arr hitems => exact hitems
  · exact .arr

@[simp] theorem writable_object_iff (d : Nat) (l : List (String × Json)) :
    Writable (d + 1) (object l) ↔ ∀ m ∈ l, Writable d m.2 := by
  constructor
  · intro h m hm
    cases h with
    | obj hmembers => exact hmembers _ (List.mem_map_of_mem hm)
  · intro h
    refine .obj fun m hm => ?_
    obtain ⟨u, hu, rfl⟩ := List.mem_map.mp hm
    exact h u hu

/-! ## Trees of any depth -/

/-- What holds of each element from some depth on holds of all from some depth on. -/
private theorem exists_depth {α : Type} {P : Nat → α → Prop}
    (hmono : ∀ d d' a, d ≤ d' → P d a → P d' a) {l : List α} (h : ∀ a ∈ l, ∃ d, P d a) :
    ∃ d, ∀ a ∈ l, P d a := by
  induction l with
  | nil => exact ⟨0, by simp⟩
  | cons a l ih =>
    obtain ⟨ha, hl⟩ := List.forall_mem_cons.mp h
    obtain ⟨d, hd⟩ := ha
    obtain ⟨e, he⟩ := ih hl
    refine ⟨max d e, List.forall_mem_cons.mpr ⟨hmono _ _ _ (le_max_left d e) hd, fun b hb => ?_⟩⟩
    exact hmono _ _ _ (le_max_right d e) (he b hb)

/-- A tree that can be written. -/
def IsWritable (v : Json) : Prop := ∃ d, Writable d v

/-- A tree of literals. -/
def IsLit (t : Json) : Prop := ∃ d, Lit d t

/-- The tree of a JSON text, however deep. -/
def IsTextOf (s : Bytes) (t : Json) : Prop := ∃ d, parseValue d s = some (t, [])

@[simp] theorem isWritable_null : IsWritable null := ⟨0, .null 0⟩

@[simp] theorem isWritable_bool (b : Bool) : IsWritable (bool b) := ⟨0, .bool 0 b⟩

@[simp] theorem isWritable_text (s : String) : IsWritable (text s) := ⟨0, writable_text 0 s⟩

@[simp] theorem isWritable_nat (n : Nat) : IsWritable (nat n) := ⟨0, writable_nat 0 n⟩

@[simp] theorem isWritable_int (i : Int) : IsWritable (int i) := ⟨0, writable_int 0 i⟩

theorem isWritable_arr {l : List Json} (h : ∀ v ∈ l, IsWritable v) : IsWritable (arr l) := by
  obtain ⟨d, hd⟩ := exists_depth (fun _ _ _ hle hv => hv.mono hle) h
  exact ⟨d + 1, .arr hd⟩

theorem isWritable_object {l : List (String × Json)} (h : ∀ m ∈ l, IsWritable m.2) :
    IsWritable (object l) := by
  obtain ⟨d, hd⟩ := exists_depth (P := fun d (m : String × Json) => Writable d m.2)
    (fun _ _ _ hle hm => hm.mono hle) h
  exact ⟨d + 1, (writable_object_iff d l).mpr hd⟩

theorem isWritable_omitEmpty : ∀ m ∈ omitEmpty key s, IsWritable m.2 := by
  unfold omitEmpty
  split
  · simp
  · simpa using ⟨0, writable_str 0 s⟩

theorem isLit_obj {l : List (Bytes × Json)} (hkeys : ∀ m ∈ l, IsRaw m.1)
    (h : ∀ m ∈ l, IsLit m.2) : IsLit (obj l) := by
  obtain ⟨d, hd⟩ := exists_depth (P := fun d (m : Bytes × Json) => Lit d m.2)
    (fun _ _ _ hle hm => hm.mono hle) h
  exact ⟨d + 1, .obj hkeys hd⟩

variable {t : Json}

theorem IsLit.isTextOf (h : IsLit t) : IsTextOf t.print t := by
  obtain ⟨d, hd⟩ := h
  have hend : EndsValue [] := by simp [EndsValue]
  exact ⟨d, by simpa using parseValue_print hd hend⟩

theorem IsLit.not_mem_print (h : IsLit t) : 10 ∉ t.print := by
  obtain ⟨d, hd⟩ := h
  intro hmem
  exact absurd (hd.le_of_mem_print 10 hmem) (by decide)

/-! ## Members that may be left out -/

theorem toValid_eq_nil_iff : toValid s = [] ↔ s = [] := by
  have hlen := Bytes.length_toValid s
  constructor
  · intro h
    rw [h, List.length_nil] at hlen
    exact List.length_eq_zero_iff.mp (by omega)
  · rintro rfl
    rfl

@[simp] theorem map_omitEmpty :
    (omitEmpty key s).map (fun m => (m.1, m.2.mapStr toValid)) = omitEmpty key (toValid s) := by
  unfold omitEmpty
  by_cases hs : s = []
  · subst hs
    rfl
  · rw [if_neg hs, if_neg fun h => hs ((toValid_eq_nil_iff s).mp h)]
    rfl

@[simp] theorem filter_omitEmpty (key k : String) (s : Bytes) :
    (omitEmpty key s).filter (fun m => m.1 = k) = if key = k then omitEmpty key s else [] := by
  unfold omitEmpty
  by_cases hs : s = []
  · simp [hs]
  · by_cases hk : key = k <;> simp [hs, hk]

/-- A string that may be left out is read back, as the empty string if it was. -/
@[simp] theorem text_omitEmpty :
    ((((omitEmpty key s).getLast?).map Prod.snd).bind text?).getD [] = s := by
  unfold omitEmpty
  by_cases hs : s = []
  · simp [hs]
  · simp [hs, text?]

@[simp] theorem writable_omitEmpty (d : Nat) (key : String) (s : Bytes) :
    ∀ m ∈ omitEmpty key s, Writable d m.2 := by
  intro m hm
  unfold omitEmpty at hm
  split at hm
  · cases hm
  · obtain rfl := List.mem_singleton.mp hm
    exact .str d s

end Json
