import MockAgents.ForStd.Float64
import MockAgents.ForStd.SortedMap

/-!
# JSON values

What `json.Unmarshal` makes of a text when it decodes into an `any`: strings are unquoted,
an object is a map (the last of several members with one key counts), and a number goes
through `number`, which is `Float64.canonical` for a `float64` and the identity for a
`json.Number`. Encoding a value writes its maps with their keys in order.
-/

namespace Json

/-! ## Decoding -/

mutual

/-- The value of a tree of literals. -/
def decodeWith (number : Bytes → Option Bytes) : Json → Option Json
  | null => some null
  | bool b => some (bool b)
  | num lit => (number lit).map num
  | str raw => some (str (unquoted raw))
  | arr items => (decodeItems number items).map arr
  | obj members => (decodeMembers number members).map fun ms => obj (SortedMap.ofList ms)

def decodeItems (number : Bytes → Option Bytes) : List Json → Option (List Json)
  | [] => some []
  | t :: ts =>
    match decodeWith number t, decodeItems number ts with
    | some v, some vs => some (v :: vs)
    | _, _ => none

def decodeMembers (number : Bytes → Option Bytes) :
    List (Bytes × Json) → Option (List (Bytes × Json))
  | [] => some []
  | (key, t) :: ms =>
    match decodeWith number t, decodeMembers number ms with
    | some v, some vs => some ((unquoted key, v) :: vs)
    | _, _ => none

end

/-- `json.Unmarshal` into an `any`: a number that no `float64` holds is an error. -/
def unmarshal (s : Bytes) : Option Json := (parse s).bind (decodeWith Float64.canonical)

/-- One `Decode` of a decoder that uses `json.Number`, which does not look at what follows
    the first value. -/
def decodeFirst (s : Bytes) : Option Json :=
  (parseValue maxNestingDepth (skipWs s)).bind fun (t, _) => decodeWith some t

/-- The text of a value. -/
def encode (html : Bool) (v : Json) : Bytes := (v.mapStr (quote html)).print

/-! ## Values -/

/-- A tree that can be written: its numbers are literals, and at most `depth` arrays and
    objects stand around each other. -/
inductive Writable : (depth : Nat) → Json → Prop
  | null (d : Nat) : Writable d null
  | bool (d : Nat) (b : Bool) : Writable d (bool b)
  | num (d : Nat) {lit : Bytes} : isNum lit = true → Writable d (num lit)
  | str (d : Nat) (s : Bytes) : Writable d (str s)
  | arr {d : Nat} {items : List Json} : (∀ v ∈ items, Writable d v) → Writable (d + 1) (arr items)
  | obj {d : Nat} {members : List (Bytes × Json)} : (∀ m ∈ members, Writable d m.2) →
      Writable (d + 1) (obj members)

theorem Writable.lit_quoted {d : Nat} {v : Json} (h : Writable d v) (html : Bool) :
    Lit d (v.mapStr (quote html)) := by
  induction h with
  | null d => exact .null d
  | bool d b => exact .bool d b
  | num d hnum => exact .num d hnum
  | str d s => exact .str d (isRaw_quote html s)
  | arr _ ih =>
    rw [mapStr, mapStrItems_eq]
    refine .arr fun t ht => ?_
    obtain ⟨v, hv, rfl⟩ := List.mem_map.mp ht
    exact ih v hv
  | obj _ ih =>
    rw [mapStr, mapStrMembers_eq]
    refine .obj (fun m hm => ?_) (fun m hm => ?_)
    · obtain ⟨v, _, rfl⟩ := List.mem_map.mp hm
      exact isRaw_quote html _
    · obtain ⟨v, hv, rfl⟩ := List.mem_map.mp hm
      exact ih v hv

/-- A decoded value: valid strings, maps with their keys in order, numbers that `number`
    leaves alone, and at most `depth` arrays and maps around each other. -/
inductive IsValue (number : Bytes → Option Bytes) : (depth : Nat) → Json → Prop
  | null (d : Nat) : IsValue number d null
  | bool (d : Nat) (b : Bool) : IsValue number d (bool b)
  | num (d : Nat) {t : Bytes} : isNum t = true → number t = some t → IsValue number d (num t)
  | str (d : Nat) {s : Bytes} : Bytes.isUtf8 s = true → IsValue number d (str s)
  | arr {d : Nat} {items : List Json} : (∀ v ∈ items, IsValue number d v) →
      IsValue number (d + 1) (arr items)
  | obj {d : Nat} {members : List (Bytes × Json)} : SortedMap.Sorted members →
      (∀ m ∈ members, Bytes.isUtf8 m.1 = true) → (∀ m ∈ members, IsValue number d m.2) →
      IsValue number (d + 1) (obj members)

section

variable {number : Bytes → Option Bytes} {v : Json}

theorem mem_of_decodeItems {ts vs : List Json} (h : decodeItems number ts = some vs) (hv : v ∈ vs) :
    ∃ t ∈ ts, decodeWith number t = some v := by
  induction ts generalizing vs with
  | nil =>
    cases h
    cases hv
  | cons t ts ih =>
    rw [decodeItems] at h
    split at h
    · rename_i v' vs' hdecode hvs
      cases h
      rcases List.mem_cons.mp hv with rfl | hv
      · exact ⟨t, by simp, hdecode⟩
      · obtain ⟨u, hu, hdecode⟩ := ih hvs hv
        exact ⟨u, by simp [hu], hdecode⟩
    · cases h

theorem mem_of_decodeMembers {ms vs : List (Bytes × Json)} (h : decodeMembers number ms = some vs)
    {e : Bytes × Json} (he : e ∈ vs) :
    ∃ m ∈ ms, e.1 = unquoted m.1 ∧ decodeWith number m.2 = some e.2 := by
  induction ms generalizing vs with
  | nil =>
    cases h
    cases he
  | cons m ms ih =>
    rw [decodeMembers] at h
    split at h
    · rename_i v vs' hdecode hvs
      cases h
      rcases List.mem_cons.mp he with rfl | he
      · exact ⟨m, by simp, rfl, hdecode⟩
      · obtain ⟨u, hu, hdecode⟩ := ih hvs he
        exact ⟨u, by simp [hu], hdecode⟩
    · cases h

variable {α : Type} {l : List α}

theorem decodeItems_map {f g : α → Json} (h : ∀ a ∈ l, decodeWith number (f a) = some (g a)) :
    decodeItems number (l.map f) = some (l.map g) := by
  induction l with
  | nil => rfl
  | cons a l ih =>
    simp [decodeItems, h a (by simp), ih fun b hb => h b (by simp [hb])]

theorem decodeMembers_map {f g : α → Bytes × Json} (hkey : ∀ a ∈ l, unquoted (f a).1 = (g a).1)
    (h : ∀ a ∈ l, decodeWith number (f a).2 = some (g a).2) :
    decodeMembers number (l.map f) = some (l.map g) := by
  induction l with
  | nil => rfl
  | cons a l ih =>
    simp [decodeMembers, hkey a (by simp), h a (by simp),
      ih (fun b hb => hkey b (by simp [hb])) fun b hb => h b (by simp [hb])]

theorem isUtf8_unquoted {raw : Bytes} (h : IsRaw raw) : Bytes.isUtf8 (unquoted raw) = true := by
  obtain ⟨s, hs⟩ := Option.isSome_iff_exists.mp h.unquote_isSome
  rw [unquoted, hs]
  exact isUtf8_of_unquote h hs

variable {d : Nat}

/-- Decoding gives a value. -/
theorem isValue_of_decodeWith (hnumber : ∀ lit t, isNum lit = true → number lit = some t →
      isNum t = true ∧ number t = some t) {t : Json} (ht : Lit d t)
    (h : decodeWith number t = some v) : IsValue number d v := by
  induction ht generalizing v with
  | null d =>
    cases h
    exact .null d
  | bool d b =>
    cases h
    exact .bool d b
  | num d hnum =>
    obtain ⟨t, ht, rfl⟩ := Option.map_eq_some_iff.mp h
    obtain ⟨hnum', hfix⟩ := hnumber _ _ hnum ht
    exact .num d hnum' hfix
  | str d hraw =>
    cases h
    exact .str d (isUtf8_unquoted hraw)
  | arr hitems ih =>
    obtain ⟨vs, hvs, rfl⟩ := Option.map_eq_some_iff.mp h
    refine .arr fun v hv => ?_
    obtain ⟨t, ht, hdecode⟩ := mem_of_decodeItems hvs hv
    exact ih t ht hdecode
  | obj hkeys hmembers ih =>
    obtain ⟨vs, hvs, rfl⟩ := Option.map_eq_some_iff.mp h
    refine .obj (SortedMap.sorted_ofList vs) (fun m hm => ?_) (fun m hm => ?_)
    · obtain ⟨m', hm', hkey, _⟩ := mem_of_decodeMembers hvs (SortedMap.mem_ofList hm)
      rw [hkey]
      exact isUtf8_unquoted (hkeys m' hm')
    · obtain ⟨m', hm', _, hdecode⟩ := mem_of_decodeMembers hvs (SortedMap.mem_ofList hm)
      exact ih m' hm' hdecode

theorem unquoted_quote {s : Bytes} (html : Bool) (h : Bytes.isUtf8 s = true) :
    unquoted (quote html s) = s := by
  rw [unquoted, unquote_quote, Option.getD_some, Bytes.toValid_of_isUtf8 h]

theorem IsValue.writable (h : IsValue number d v) : Writable d v := by
  induction h with
  | null d => exact .null d
  | bool d b => exact .bool d b
  | num d hnum _ => exact .num d hnum
  | str d _ => exact .str d _
  | arr _ ih => exact .arr ih
  | obj _ _ _ ih => exact .obj ih

theorem IsValue.decodeWith_quoted (h : IsValue number d v) (html : Bool) :
    decodeWith number (v.mapStr (quote html)) = some v := by
  induction h with
  | null | bool => rfl
  | num d _ hfix => rw [mapStr, decodeWith, hfix, Option.map_some]
  | str d hs => rw [mapStr, decodeWith, unquoted_quote html hs]
  | arr _ ih =>
    rw [mapStr, mapStrItems_eq, decodeWith, decodeItems_map ih, Option.map_some, List.map_id']
  | obj hsorted hkeys _ ih =>
    rw [mapStr, mapStrMembers_eq, decodeWith,
      decodeMembers_map (g := fun m => m) (fun m hm => unquoted_quote html (hkeys m hm)) ih,
      Option.map_some, List.map_id', SortedMap.ofList_of_sorted hsorted]

end

/-! ## Texts of values -/

variable {v : Json}

theorem isValue_of_unmarshal {s : Bytes} (h : unmarshal s = some v) :
    IsValue Float64.canonical maxNestingDepth v := by
  obtain ⟨t, ht, hv⟩ := Option.bind_eq_some_iff.mp h
  exact isValue_of_decodeWith (fun lit t _ => Float64.canonical_idem) (lit_of_parse ht) hv

/-- The text of a value is decoded back. -/
theorem unmarshal_encode (h : IsValue Float64.canonical maxNestingDepth v) (html : Bool) :
    unmarshal (encode html v) = some v := by
  rw [unmarshal, encode, parse_print (h.writable.lit_quoted html)]
  exact h.decodeWith_quoted html

/-- Different values have different texts. -/
theorem encode_injective {w : Json} (hv : IsValue Float64.canonical maxNestingDepth v)
    (hw : IsValue Float64.canonical maxNestingDepth w) {html : Bool}
    (h : encode html v = encode html w) : v = w := by
  have hdecode := unmarshal_encode hv html
  rw [h, unmarshal_encode hw html] at hdecode
  exact (Option.some.inj hdecode).symm

end Json
