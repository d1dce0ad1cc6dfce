import MockAgents.ForStd.AssocList
import MockAgents.ForStd.JsonValue
import MockAgents.ForStd.Runes
import MockAgents.Types.Agent

/-!
# Dynamic values

What `encoding/json` decodes into an `any`, `reflect.DeepEqual` on such values, and equality
as JSON values. YAML decodes a whole number to an `int`, JSON every number to a `float64`, and
`DeepEqual` tells the two apart at every depth.
-/

namespace MockAgents.Value

/-! ## Decidable equality -/

mutual

/-- The values are the same, entries in order. -/
def same : Value → Value → Bool
  | .null, .null => true
  | .bool a, .bool b => a == b
  | .int a, .int b => a == b
  | .float a, .float b => a == b
  | .str a, .str b => a == b
  | .arr as, .arr bs => sameItems as bs
  | .obj fs, .obj gs => sameFields fs gs
  | _, _ => false

def sameItems : List Value → List Value → Bool
  | [], [] => true
  | a :: as, b :: bs => same a b && sameItems as bs
  | _, _ => false

def sameFields : List (String × Value) → List (String × Value) → Bool
  | [], [] => true
  | (k, a) :: fs, (l, b) :: gs => k == l && same a b && sameFields fs gs
  | _, _ => false

end

mutual

theorem same_iff (a b : Value) : same a b = true ↔ a = b := by
  cases a with
  | null | bool | int | float | str => cases b <;> simp [same]
  | arr as => cases b <;> simp [same, sameItems_iff as]
  | obj fs => cases b <;> simp [same, sameFields_iff fs]

theorem sameItems_iff (as bs : List Value) : sameItems as bs = true ↔ as = bs := by
  cases as with
  | nil => cases bs <;> simp [sameItems]
  | cons a as => cases bs <;> simp [sameItems, same_iff a, sameItems_iff as]

theorem sameFields_iff (fs gs : Fields) : sameFields fs gs = true ↔ fs = gs := by
  cases fs with
  | nil => cases gs <;> simp [sameFields]
  | cons m fs =>
    cases gs <;> simp [sameFields, same_iff m.2, sameFields_iff fs, Prod.ext_iff]

end

instance : DecidableEq Value := fun a b => decidable_of_iff _ (same_iff a b)

/-! ## Well-formed values -/

/-- Maps have distinct keys, at every depth. -/
inductive Keyed : Value → Prop
  | null : Keyed .null
  | bool (b : Bool) : Keyed (.bool b)
  | int (i : Int) : Keyed (.int i)
  | float (q : Rat) : Keyed (.float q)
  | str (s : String) : Keyed (.str s)
  | arr {items : List Value} : (∀ v ∈ items, Keyed v) → Keyed (.arr items)
  | obj {fields : Fields} : (fields.map Prod.fst).Nodup → (∀ m ∈ fields, Keyed m.2) →
      Keyed (.obj fields)

mutual

/-- No `int` at any depth. -/
def intFree : Value → Bool
  | .int _ => false
  | .arr items => intFreeItems items
  | .obj fields => intFreeFields fields
  | _ => true

def intFreeItems : List Value → Bool
  | [] => true
  | v :: vs => v.intFree && intFreeItems vs

def intFreeFields : List (String × Value) → Bool
  | [] => true
  | (_, v) :: fs => v.intFree && intFreeFields fs

end

theorem intFreeItems_iff (items : List Value) :
    intFreeItems items = true ↔ ∀ v ∈ items, v.intFree = true := by
  induction items with
  | nil => simp [intFreeItems]
  | cons v vs ih => simp [intFreeItems, ih]

theorem intFreeFields_iff (fields : Fields) :
    intFreeFields fields = true ↔ ∀ m ∈ fields, m.2.intFree = true := by
  induction fields with
  | nil => simp [intFreeFields]
  | cons m fs ih => simp [intFreeFields, ih]

/-! ## Equality -/

mutual

def deepEqual : Value → Value → Bool
  | .null, .null => true
  | .bool a, .bool b => a == b
  | .int a, .int b => a == b
  | .float a, .float b => a == b
  | .str a, .str b => a == b
  | .arr as, .arr bs => deepEqualItems as bs
  | .obj fs, .obj gs => fs.length == gs.length && deepEqualFields fs gs
  | _, _ => false

def deepEqualItems : List Value → List Value → Bool
  | [], [] => true
  | a :: as, b :: bs => deepEqual a b && deepEqualItems as bs
  | _, _ => false

/-- Every entry has an equal one under its key. -/
def deepEqualFields : List (String × Value) → List (String × Value) → Bool
  | [], _ => true
  | (k, v) :: fs, gs =>
    (match gs.lookup k with
      | some w => deepEqual v w
      | none => false) && deepEqualFields fs gs

end

def number? : Value → Option Rat
  | .int i => some i
  | .float q => some q
  | _ => none

/-- Equality as JSON values: numbers by value, objects by their members. -/
inductive JsonEq : Value → Value → Prop
  | null : JsonEq .null .null
  | bool (b : Bool) : JsonEq (.bool b) (.bool b)
  | num {a b : Value} {q : Rat} : a.number? = some q → b.number? = some q → JsonEq a b
  | str (s : String) : JsonEq (.str s) (.str s)
  | arr {as bs : List Value} : as.length = bs.length → (∀ p ∈ as.zip bs, JsonEq p.1 p.2) →
      JsonEq (.arr as) (.arr bs)
  | obj {fs gs : Fields} : (∀ k, (fs.lookup k).isSome = (gs.lookup k).isSome) →
      (∀ k v w, fs.lookup k = some v → gs.lookup k = some w → JsonEq v w) →
      JsonEq (.obj fs) (.obj gs)

section

variable {b : Value}

theorem deepEqual_null : deepEqual .null b = true ↔ b = .null := by
  cases b <;> simp [deepEqual]

theorem deepEqual_bool {x : Bool} : deepEqual (.bool x) b = true ↔ b = .bool x := by
  cases b with
  | bool y => simpa [deepEqual] using eq_comm
  | _ => simp [deepEqual]

theorem deepEqual_float {q : Rat} : deepEqual (.float q) b = true ↔ b = .float q := by
  cases b with
  | float y => simpa [deepEqual] using eq_comm
  | _ => simp [deepEqual]

theorem deepEqual_str {s : String} : deepEqual (.str s) b = true ↔ b = .str s := by
  cases b with
  | str y => simpa [deepEqual] using eq_comm
  | _ => simp [deepEqual]

variable {as : List Value}

theorem deepEqualItems_iff {bs : List Value} :
    deepEqualItems as bs = true ↔
      as.length = bs.length ∧ ∀ p ∈ as.zip bs, deepEqual p.1 p.2 = true := by
  induction as generalizing bs with
  | nil => cases bs <;> simp [deepEqualItems]
  | cons a as ih =>
    cases bs with
    | nil => simp [deepEqualItems]
    | cons b bs =>
      simp only [deepEqualItems, Bool.and_eq_true, ih, List.length_cons, Nat.add_right_cancel_iff,
        List.zip_cons_cons, List.forall_mem_cons]
      tauto

theorem deepEqual_arr :
    deepEqual (.arr as) b = true ↔
      ∃ bs, b = .arr bs ∧ as.length = bs.length ∧ ∀ p ∈ as.zip bs, deepEqual p.1 p.2 = true := by
  cases b <;> simp [deepEqual, deepEqualItems_iff]

variable {fs : Fields}

theorem deepEqualFields_iff {gs : Fields} :
    deepEqualFields fs gs = true ↔
      ∀ m ∈ fs, ∃ w, gs.lookup m.1 = some w ∧ deepEqual m.2 w = true := by
  induction fs with
  | nil => simp [deepEqualFields]
  | cons m fs ih =>
    obtain ⟨k, v⟩ := m
    rw [deepEqualFields, Bool.and_eq_true, ih, List.forall_mem_cons]
    cases gs.lookup k <;> simp

theorem deepEqual_obj :
    deepEqual (.obj fs) b = true ↔
      ∃ gs, b = .obj gs ∧ fs.length = gs.length ∧
        ∀ m ∈ fs, ∃ w, gs.lookup m.1 = some w ∧ deepEqual m.2 w = true := by
  cases b <;> simp [deepEqual, deepEqualFields_iff]

theorem jsonEq_null : JsonEq .null b ↔ b = .null := by
  constructor
  · rintro (_ | _ | ⟨hnum, _⟩)
    · rfl
    · cases hnum
  · rintro rfl
    exact .null

theorem jsonEq_bool {x : Bool} : JsonEq (.bool x) b ↔ b = .bool x := by
  constructor
  · rintro (_ | _ | ⟨hnum, _⟩)
    · rfl
    · cases hnum
  · rintro rfl
    exact .bool x

/-- A number is equal to the numbers of its value. -/
theorem jsonEq_number {a : Value} {q : Rat} (ha : a.number? = some q) :
    JsonEq a b ↔ b.number? = some q := by
  constructor
  · rintro (_ | _ | ⟨hnum, hb⟩)
    all_goals first | cases ha | skip
    exact hb.trans (hnum.symm.trans ha)
  · exact .num ha

theorem jsonEq_str {s : String} : JsonEq (.str s) b ↔ b = .str s := by
  constructor
  · rintro (_ | _ | ⟨hnum, _⟩)
    · cases hnum
    · rfl
  · rintro rfl
    exact .str s

theorem jsonEq_arr :
    JsonEq (.arr as) b ↔
      ∃ bs, b = .arr bs ∧ as.length = bs.length ∧ ∀ p ∈ as.zip bs, JsonEq p.1 p.2 := by
  constructor
  · rintro (_ | _ | ⟨hnum, _⟩ | _ | ⟨hlen, hall⟩)
    · cases hnum
    · exact ⟨_, rfl, hlen, hall⟩
  · rintro ⟨bs, rfl, hlen, hall⟩
    exact .arr hlen hall

theorem jsonEq_obj :
    JsonEq (.obj fs) b ↔
      ∃ gs, b = .obj gs ∧ (∀ k, (fs.lookup k).isSome = (gs.lookup k).isSome) ∧
        ∀ k v w, fs.lookup k = some v → gs.lookup k = some w → JsonEq v w := by
  constructor
  · rintro (_ | _ | ⟨hnum, _⟩ | _ | _ | ⟨hkeys, hall⟩)
    · cases hnum
    · exact ⟨_, rfl, hkeys, hall⟩
  · rintro ⟨gs, rfl, hkeys, hall⟩
    exact .obj hkeys hall

end

/-- What `deepEqual_iff` says about one value on the left. -/
private def EqualsByValue (a : Value) : Prop :=
  ∀ b, Keyed b → (deepEqual a b = true ↔ JsonEq a b ∧ b.intFree = true)

private theorem equalsByValue_arr {as : List Value} (h : ∀ a ∈ as, EqualsByValue a) :
    EqualsByValue (.arr as) := by
  intro b hb
  rw [deepEqual_arr, jsonEq_arr]
  constructor
  · rintro ⟨bs, rfl, hlen, hall⟩
    cases hb with
    | arr hbs =>
      have hpair (p) (hp : p ∈ as.zip bs) : JsonEq p.1 p.2 ∧ p.2.intFree = true :=
        have ⟨hfst, hsnd⟩ := List.of_mem_zip hp
        (h p.1 hfst p.2 (hbs _ hsnd)).mp (hall p hp)
      refine ⟨⟨bs, rfl, hlen, fun p hp => (hpair p hp).1⟩, (intFreeItems_iff bs).mpr ?_⟩
      intro b hb
      -- every item of the second array has a partner in the first
      obtain ⟨i, hi, rfl⟩ := List.getElem_of_mem hb
      have hzip : (as[i], bs[i]) ∈ as.zip bs :=
        List.mem_iff_getElem.mpr ⟨i, by simpa [hlen] using hi, by simp⟩
      exact (hpair _ hzip).2
  · rintro ⟨⟨bs, rfl, hlen, hall⟩, hfree⟩
    cases hb with
    | arr hbs =>
      refine ⟨bs, rfl, hlen, fun p hp => ?_⟩
      obtain ⟨hfst, hsnd⟩ := List.of_mem_zip hp
      exact (h p.1 hfst p.2 (hbs _ hsnd)).mpr
        ⟨hall p hp, (intFreeItems_iff bs).mp hfree _ hsnd⟩

private theorem equalsByValue_obj {fs : Fields} (hnodup : (fs.map Prod.fst).Nodup)
    (h : ∀ m ∈ fs, EqualsByValue m.2) : EqualsByValue (.obj fs) := by
  intro b hb
  rw [deepEqual_obj, jsonEq_obj]
  constructor
  · rintro ⟨gs, rfl, hlen, hall⟩
    cases hb with
    | obj hnodup' hgs =>
      have hkeys : ∀ k ∈ fs.map Prod.fst, k ∈ gs.map Prod.fst := by
        intro k hk
        obtain ⟨m, hm, rfl⟩ := List.mem_map.mp hk
        obtain ⟨w, hw, _⟩ := hall m hm
        exact List.isSome_lookup_iff.mp (by simp [hw])
      -- the maps have as many keys, so there are no others
      have hkeys' : ∀ k ∈ gs.map Prod.fst, k ∈ fs.map Prod.fst := fun k hk =>
        List.mem_keys_of_length_eq hnodup hlen hkeys hk
      have hpair (k v w) (hv : fs.lookup k = some v) (hw : gs.lookup k = some w) :
          JsonEq v w ∧ w.intFree = true := by
        have hmem := List.mem_of_lookup hv
        obtain ⟨w', hw', heq⟩ := hall _ hmem
        cases hw.symm.trans hw'
        exact (h _ hmem w (hgs _ (List.mem_of_lookup hw))).mp heq
      refine ⟨⟨gs, rfl, fun k => ?_, fun k v w hv hw => (hpair k v w hv hw).1⟩,
        (intFreeFields_iff gs).mpr fun m hm => ?_⟩
      · rw [Bool.eq_iff_iff, List.isSome_lookup_iff, List.isSome_lookup_iff]
        exact ⟨hkeys k, hkeys' k⟩
      · obtain ⟨v, hv⟩ := Option.isSome_iff_exists.mp
          (List.isSome_lookup_iff.mpr (hkeys' m.1 (List.mem_map_of_mem hm)))
        exact (hpair m.1 v m.2 hv (List.lookup_of_mem hnodup' hm)).2
  · rintro ⟨⟨gs, rfl, hkeys, hall⟩, hfree⟩
    cases hb with
    | obj hnodup' hgs =>
      have hdom (k) : k ∈ fs.map Prod.fst ↔ k ∈ gs.map Prod.fst := by
        rw [← List.isSome_lookup_iff, ← List.isSome_lookup_iff, hkeys]
      have hperm : (fs.map Prod.fst).Perm (gs.map Prod.fst) :=
        (List.perm_ext_iff_of_nodup hnodup hnodup').mpr hdom
      refine ⟨gs, rfl, by simpa using hperm.length_eq, fun m hm => ?_⟩
      obtain ⟨w, hw⟩ := Option.isSome_iff_exists.mp
        (List.isSome_lookup_iff.mpr ((hdom m.1).mp (List.mem_map_of_mem hm)))
      have hmem := List.mem_of_lookup hw
      exact ⟨w, hw, (h m hm w (hgs _ hmem)).mpr
        ⟨hall m.1 m.2 w (List.lookup_of_mem hnodup hm) hw,
          (intFreeFields_iff gs).mp hfree _ hmem⟩⟩

/-- A value that JSON was decoded to is deeply equal to the JSON-equal values without an
    `int`. -/
theorem deepEqual_iff {a b : Value} (ha : Keyed a) (hint : a.intFree = true) (hb : Keyed b) :
    deepEqual a b = true ↔ JsonEq a b ∧ b.intFree = true := by
  revert b
  induction ha with
  | null =>
    intro b _
    rw [deepEqual_null, jsonEq_null]
    exact ⟨fun h => ⟨h, h ▸ rfl⟩, And.left⟩
  | bool x =>
    intro b _
    rw [deepEqual_bool, jsonEq_bool]
    exact ⟨fun h => ⟨h, h ▸ rfl⟩, And.left⟩
  | int i => cases hint
  | float q =>
    intro b _
    rw [deepEqual_float, jsonEq_number rfl]
    cases b <;> simp [number?, intFree]
  | str s =>
    intro b _
    rw [deepEqual_str, jsonEq_str]
    exact ⟨fun h => ⟨h, h ▸ rfl⟩, And.left⟩
  | arr _ ih =>
    have hfree := (intFreeItems_iff _).mp hint
    exact fun {b} hb => equalsByValue_arr (fun a ha _ hb => ih a ha (hfree a ha) hb) b hb
  | obj hnodup _ ih =>
    have hfree := (intFreeFields_iff _).mp hint
    exact fun {b} hb => equalsByValue_obj hnodup (fun m hm _ hb => ih m hm (hfree m hm) hb) b hb

/-! ## Decoding -/

mutual

/-- What JSON is decoded to; `none` if a number is too large for a `float64`. -/
def ofJson : Json → Option Value
  | .null => some .null
  | .bool b => some (.bool b)
  | .num lit => (Float64.parse lit).map fun f => .float f.toRat
  | .str raw => some (.str (Strings.ofBytes (Json.unquoted raw)))
  | .arr items => (ofJsonItems items).map .arr
  | .obj members => (ofJsonMembers [] members).map .obj

def ofJsonItems : List Json → Option (List Value)
  | [] => some []
  | t :: ts =>
    match ofJson t, ofJsonItems ts with
    | some v, some vs => some (v :: vs)
    | _, _ => none

/-- Decode the members of an object into a map. -/
def ofJsonMembers (fields : Fields) : List (Bytes × Json) → Option Fields
  | [] => some fields
  | (key, t) :: ms =>
    match ofJson t with
    | some v => ofJsonMembers (fields.setEntry (Strings.ofBytes (Json.unquoted key)) v) ms
    | none => none

end

/-- A value that JSON can be decoded to. -/
structure FromJson (v : Value) : Prop where
  keyed : Keyed v
  intFree : v.intFree = true

theorem FromJson.empty : FromJson (.obj []) := ⟨.obj (by simp) (by simp), rfl⟩

theorem FromJson.setEntry {fields : Fields} (h : FromJson (.obj fields)) (k : String) {v : Value}
    (hv : FromJson v) : FromJson (.obj (fields.setEntry k v)) := by
  obtain ⟨hkeyed, hfree⟩ := h
  cases hkeyed with
  | obj hnodup hfields =>
    refine ⟨.obj (List.nodup_keys_setEntry hnodup k v) fun m hm => ?_,
      (intFreeFields_iff _).mpr fun m hm => ?_⟩
    · rcases List.mem_of_mem_setEntry hm with rfl | hm
      · exact hv.keyed
      · exact hfields m hm
    · rcases List.mem_of_mem_setEntry hm with rfl | hm
      · exact hv.intFree
      · exact (intFreeFields_iff fields).mp hfree m hm

mutual

/-- JSON is decoded to values with distinct keys and without an `int`. -/
theorem fromJson_of_ofJson {t : Json} {v : Value} (h : ofJson t = some v) : FromJson v := by
  cases t with
  | null | bool | str =>
    cases h
    exact ⟨by constructor, rfl⟩
  | num lit =>
    obtain ⟨f, _, rfl⟩ := Option.map_eq_some_iff.mp h
    exact ⟨.float _, rfl⟩
  | arr items =>
    obtain ⟨vs, hvs, rfl⟩ := Option.map_eq_some_iff.mp h
    have hall := fromJson_of_ofJsonItems hvs
    exact ⟨.arr fun v hv => (hall v hv).keyed,
      (intFreeItems_iff vs).mpr fun v hv => (hall v hv).intFree⟩
  | obj members =>
    obtain ⟨fields, hfields, rfl⟩ := Option.map_eq_some_iff.mp h
    exact fromJson_of_ofJsonMembers .empty hfields

theorem fromJson_of_ofJsonItems {ts : List Json} {vs : List Value}
    (h : ofJsonItems ts = some vs) : ∀ v ∈ vs, FromJson v := by
  cases ts with
  | nil =>
    cases h
    simp
  | cons t ts =>
    rw [ofJsonItems] at h
    split at h
    · rename_i v vs' hv hvs
      cases h
      exact List.forall_mem_cons.mpr ⟨fromJson_of_ofJson hv, fromJson_of_ofJsonItems hvs⟩
    · cases h

theorem fromJson_of_ofJsonMembers {fields fields' : Fields} {ms : List (Bytes × Json)}
    (hfields : FromJson (.obj fields)) (h : ofJsonMembers fields ms = some fields') :
    FromJson (.obj fields') := by
  cases ms with
  | nil =>
    cases h
    exact hfields
  | cons m ms =>
    rw [ofJsonMembers] at h
    split at h
    · rename_i v hv
      exact fromJson_of_ofJsonMembers (hfields.setEntry _ (fromJson_of_ofJson hv)) h
    · cases h

end

end MockAgents.Value
