import Mathlib.Algebra.GroupWithZero.Nat
import MockAgents.ForStd.JsonString

/-!
# JSON texts

The syntax trees of JSON texts, the parser of Go's `encoding/json`, and the compact
printer. The strings and keys of a tree that was parsed are raw texts: what they stand for
is `Json.value`. The parser takes the nesting depth that is left, as the scanner counts it
down from `maxNestingDepth`.
-/

/-- The tree of a JSON text. -/
inductive Json where
  | null
  | bool (b : Bool)
  | num (lit : Bytes)
  | str (s : Bytes)
  | arr (items : List Json)
  | obj (members : List (Bytes × Json))

namespace Json

open List (cons_append length_append length_cons map_cons map_map mem_append mem_cons mem_map)
open Option (map_eq_some_iff map_some)

/-! ## Numbers -/

/-- The scanner's states inside a number, named after what was read last. -/
inductive NumState where
  | start | minus | zero | int | dot | frac | exp | expSign | expDigits
  deriving DecidableEq

def isDigit (b : UInt8) : Bool := decide (48 ≤ b.toNat ∧ b.toNat ≤ 57)

/-- The states in which a number may end. -/
def NumState.accepts : NumState → Bool
  | zero | int | frac | expDigits => true
  | _ => false

/-- The state after one more byte of a number. -/
def numStep : NumState → UInt8 → Option NumState
  | .start, b =>
    if b = 45 then some .minus else if b = 48 then some .zero
    else if isDigit b then some .int else none
  | .minus, b => if b = 48 then some .zero else if isDigit b then some .int else none
  | .zero, b => if b = 46 then some .dot else if b = 101 ∨ b = 69 then some .exp else none
  | .int, b =>
    if isDigit b then some .int
    else if b = 46 then some .dot else if b = 101 ∨ b = 69 then some .exp else none
  | .dot, b => if isDigit b then some .frac else none
  | .frac, b => if isDigit b then some .frac else if b = 101 ∨ b = 69 then some .exp else none
  | .exp, b =>
    if b = 43 ∨ b = 45 then some .expSign else if isDigit b then some .expDigits else none
  | .expSign, b => if isDigit b then some .expDigits else none
  | .expDigits, b => if isDigit b then some .expDigits else none

/-- The state after more of a number. -/
def numSteps (st : NumState) (s : Bytes) : Option NumState := s.foldlM numStep st

/-- A number literal. -/
def isNum (lit : Bytes) : Bool := (numSteps .start lit).any NumState.accepts

/-- Scan a number: the longest literal, and what follows it. -/
def scanNum : NumState → Bytes → Option (Bytes × Bytes)
  | st, [] => if st.accepts then some ([], []) else none
  | st, b :: rest =>
    match numStep st b with
    | some st' => (scanNum st' rest).map fun (lit, r) => (b :: lit, r)
    | none => if st.accepts then some ([], b :: rest) else none

/-! ## Parsing -/

def isSpace (b : UInt8) : Bool := b == 32 || b == 9 || b == 10 || b == 13

/-- What follows the white space. -/
def skipWs (s : Bytes) : Bytes := s.dropWhile isSpace

@[simp] theorem skipWs_nil : skipWs [] = [] := rfl

/-- A value that is no array and no object. -/
def parseScalar : Bytes → Option (Json × Bytes)
  | 34 :: s => (scanString .normal s).map fun (raw, r) => (.str raw, r)
  | 110 :: 117 :: 108 :: 108 :: r => some (.null, r)
  | 116 :: 114 :: 117 :: 101 :: r => some (.bool true, r)
  | 102 :: 97 :: 108 :: 115 :: 101 :: r => some (.bool false, r)
  | s => (scanNum .start s).map fun (lit, r) => (.num lit, r)

/-- Elements that `p` parses, separated by commas, up to the byte `close`. -/
def parseElems {α : Type} (close : UInt8) (p : Bytes → Option (α × Bytes)) :
    (fuel : Nat) → Bytes → Option (List α × Bytes)
  | 0, _ => none
  | fuel + 1, s =>
    match p (skipWs s) with
    | none => none
    | some (a, s) =>
      match skipWs s with
      | [] => none
      | b :: s =>
        if b = 44 then (parseElems close p fuel s).map fun (as, r) => (a :: as, r)
        else if b = close then some ([a], s)
        else none

/-- The elements after an opening bracket. -/
def parseList {α : Type} (close : UInt8) (p : Bytes → Option (α × Bytes)) (s : Bytes) :
    Option (List α × Bytes) :=
  match skipWs s with
  | [] => none
  | b :: r => if b = close then some ([], r) else parseElems close p s.length s

def parseMember {α : Type} (p : Bytes → Option (α × Bytes)) : Bytes → Option ((Bytes × α) × Bytes)
  | 34 :: s =>
    match scanString .normal s with
    | none => none
    | some (key, s) =>
      match skipWs s with
      | 58 :: s => (p (skipWs s)).map fun (v, r) => ((key, v), r)
      | _ => none
  | _ => none

/-- The value at the front, with at most `depth` arrays and objects around each other. -/
def parseValue : (depth : Nat) → Bytes → Option (Json × Bytes)
  | 0, s => parseScalar s
  | depth + 1, s =>
    match s with
    | 91 :: s => (parseList 93 (parseValue depth) s).map fun (items, r) => (.arr items, r)
    | 123 :: s =>
      (parseList 125 (parseMember (parseValue depth)) s).map fun (ms, r) => (.obj ms, r)
    | s => parseScalar s

/-- What `p` parses, with its text. -/
def withText {α : Type} (p : Bytes → Option (α × Bytes)) (s : Bytes) :
    Option ((Bytes × α) × Bytes) :=
  (p s).map fun (a, r) => ((s.take (s.length - r.length), a), r)

def maxNestingDepth : Nat := 10000

/-- The value of a text that holds one value. -/
def parse (s : Bytes) : Option Json :=
  match parseValue maxNestingDepth (skipWs s) with
  | none => none
  | some (t, r) => if skipWs r = [] then some t else none

def valid (s : Bytes) : Bool := (parse s).isSome

/-! ## Printing -/

/-- The texts with commas between them. -/
def joinComma : List Bytes → Bytes
  | [] => []
  | [a] => a
  | a :: b :: l => a ++ 44 :: joinComma (b :: l)

def printMember (key value : Bytes) : Bytes := 34 :: key ++ 34 :: 58 :: value

mutual

/-- The compact text of a tree of literals. -/
def print : Json → Bytes
  | null => [110, 117, 108, 108]
  | bool true => [116, 114, 117, 101]
  | bool false => [102, 97, 108, 115, 101]
  | num lit => lit
  | str raw => 34 :: raw ++ [34]
  | arr items => 91 :: joinComma (printItems items) ++ [93]
  | obj members => 123 :: joinComma (printMembers members) ++ [125]

def printItems : List Json → List Bytes
  | [] => []
  | t :: ts => print t :: printItems ts

def printMembers : List (Bytes × Json) → List Bytes
  | [] => []
  | (key, t) :: ms => printMember key (print t) :: printMembers ms

end

mutual

/-- The tree with `f` applied to its strings and keys. -/
def mapStr (f : Bytes → Bytes) : Json → Json
  | null => null
  | bool b => bool b
  | num lit => num lit
  | str s => str (f s)
  | arr items => arr (mapStrItems f items)
  | obj members => obj (mapStrMembers f members)

def mapStrItems (f : Bytes → Bytes) : List Json → List Json
  | [] => []
  | t :: ts => mapStr f t :: mapStrItems f ts

def mapStrMembers (f : Bytes → Bytes) : List (Bytes × Json) → List (Bytes × Json)
  | [] => []
  | (key, t) :: ms => (f key, mapStr f t) :: mapStrMembers f ms

end

/-- The string that a raw text stands for. -/
def unquoted (raw : Bytes) : Bytes := (unquote raw).getD []

/-- What a tree of literals stands for. Numbers stay literals. -/
def value (t : Json) : Json := t.mapStr unquoted

/-- `Compact` with HTML escaping, as the encoder writes a raw message. -/
def compact (s : Bytes) : Option Bytes := (parse s).map fun t => (t.mapStr escapeRaw).print

/-- The two are JSON texts for the same value. -/
def Equiv (a b : Bytes) : Prop := ∃ t u, parse a = some t ∧ parse b = some u ∧ t.value = u.value

/-! ## Trees of literals -/

/-- The strings are raw texts, the numbers number literals, and at most `depth` arrays and
    objects stand around each other. -/
inductive Lit : (depth : Nat) → Json → Prop
  | null (d : Nat) : Lit d null
  | bool (d : Nat) (b : Bool) : Lit d (bool b)
  | num (d : Nat) {lit : Bytes} : isNum lit = true → Lit d (num lit)
  | str (d : Nat) {raw : Bytes} : IsRaw raw → Lit d (str raw)
  | arr {d : Nat} {items : List Json} : (∀ t ∈ items, Lit d t) → Lit (d + 1) (arr items)
  | obj {d : Nat} {members : List (Bytes × Json)} : (∀ m ∈ members, IsRaw m.1) →
      (∀ m ∈ members, Lit d m.2) → Lit (d + 1) (obj members)

theorem printItems_eq (ts : List Json) : printItems ts = ts.map print := by
  induction ts with
  | nil => rfl
  | cons t ts ih => rw [printItems, ih, map_cons]

theorem printMembers_eq (ms : List (Bytes × Json)) :
    printMembers ms = ms.map fun m => printMember m.1 m.2.print := by
  induction ms with
  | nil => rfl
  | cons m ms ih => rw [printMembers, ih, map_cons]

theorem mapStrItems_eq (f : Bytes → Bytes) (ts : List Json) :
    mapStrItems f ts = ts.map (mapStr f) := by
  induction ts with
  | nil => rfl
  | cons t ts ih => rw [mapStrItems, ih, map_cons]

theorem mapStrMembers_eq (f : Bytes → Bytes) (ms : List (Bytes × Json)) :
    mapStrMembers f ms = ms.map fun m => (f m.1, m.2.mapStr f) := by
  induction ms with
  | nil => rfl
  | cons m ms ih => rw [mapStrMembers, ih, map_cons]

/-! ## Numbers are scanned to their end -/

/-- A byte that may follow a value. -/
def isEnd (b : UInt8) : Bool := b == 44 || b == 93 || b == 125 || isSpace b

/-- What follows a value in a text. -/
def EndsValue (rest : Bytes) : Prop := ∀ b ∈ rest.head?, isEnd b = true

variable {b : UInt8}

theorem numStep_of_isEnd (st : NumState) (h : isEnd b = true) : numStep st b = none := by
  simp only [isEnd, isSpace, Bool.or_eq_true, beq_iff_eq] at h
  rcases h with ((rfl | rfl) | rfl) | ((rfl | rfl) | rfl) | rfl <;> cases st <;> rfl

theorem numSteps_cons (st : NumState) (b : UInt8) (s : Bytes) :
    numSteps st (b :: s) = (numStep st b).bind (numSteps · s) := by
  rfl

variable {st : NumState} {lit rest : Bytes}

theorem scanNum_append (h : (numSteps st lit).any NumState.accepts = true)
    (hrest : EndsValue rest) : scanNum st (lit ++ rest) = some (lit, rest) := by
  induction lit generalizing st with
  | nil =>
    have hst : st.accepts = true := h
    cases rest with
    | nil => simp [scanNum, hst]
    | cons b rest => simp [scanNum, numStep_of_isEnd st (hrest b rfl), hst]
  | cons b lit ih =>
    rw [numSteps_cons] at h
    cases hstep : numStep st b with
    | none =>
      rw [hstep] at h
      cases h
    | some st' =>
      rw [hstep] at h
      simp [scanNum, hstep, ih h]

variable {s r : Bytes}

theorem scanNum_spec (h : scanNum st s = some (lit, r)) :
    s = lit ++ r ∧ (numSteps st lit).any NumState.accepts = true := by
  induction s generalizing st lit with
  | nil =>
    simp only [scanNum] at h
    split at h
    · rename_i hst
      cases h
      exact ⟨rfl, hst⟩
    · cases h
  | cons b s ih =>
    simp only [scanNum] at h
    split at h
    · rename_i st' hstep
      obtain ⟨⟨lit', r'⟩, hscan, heq⟩ := map_eq_some_iff.mp h
      cases heq
      rw [numSteps_cons, hstep]
      exact (ih hscan).imp_left (congrArg (b :: ·))
    · split at h
      · rename_i hst
        cases h
        exact ⟨rfl, hst⟩
      · cases h

theorem isNum_head (h : isNum lit = true) : ∃ b l, lit = b :: l ∧ (b = 45 ∨ isDigit b = true) := by
  cases lit with
  | nil => cases h
  | cons b l =>
    refine ⟨b, l, rfl, ?_⟩
    by_contra hb
    rw [not_or] at hb
    have hzero : b ≠ 48 := by
      rintro rfl
      exact nomatch hb.2
    simp [isNum, numSteps_cons, numStep, hb.1, hb.2, hzero] at h

/-! ## Scalars -/

theorem parseScalar_num (h : isNum lit = true) (hrest : EndsValue rest) :
    parseScalar (lit ++ rest) = some (num lit, rest) := by
  have hscan : scanNum .start (lit ++ rest) = some (lit, rest) := scanNum_append h hrest
  obtain ⟨b, l, rfl, hb⟩ := isNum_head h
  -- no other scalar starts with a minus sign or a digit
  have hne : ∀ c, c = 34 ∨ c = 110 ∨ c = 116 ∨ c = 102 → b ≠ c := by
    rintro c hc rfl
    rcases hb with rfl | hb
    · simp at hc
    · rcases hc with rfl | rfl | rfl | rfl <;> cases hb
  unfold parseScalar
  split
  iterate 4
    · rename_i heq
      exact absurd (List.cons.inj heq).1 (hne _ (by simp))
  · rw [hscan]
    rfl

variable {raw : Bytes}

theorem parseScalar_str (h : IsRaw raw) (rest : Bytes) :
    parseScalar (34 :: raw ++ 34 :: rest) = some (str raw, rest) := by
  have hscan : scanString .normal (raw ++ 34 :: rest) = some (raw, rest) :=
    scanString_eq_some_iff.mpr ⟨h, rfl⟩
  show (scanString .normal (raw ++ 34 :: rest)).map _ = _
  rw [hscan]
  rfl

variable {t : Json}

theorem lit_of_parseScalar (d : Nat) (h : parseScalar s = some (t, r)) : Lit d t := by
  unfold parseScalar at h
  split at h
  · obtain ⟨⟨raw, r'⟩, hscan, heq⟩ := map_eq_some_iff.mp h
    cases heq
    exact .str d (scanString_eq_some_iff.mp hscan).1
  · cases h
    exact .null d
  · cases h
    exact .bool d true
  · cases h
    exact .bool d false
  · obtain ⟨⟨lit, r'⟩, hscan, heq⟩ := map_eq_some_iff.mp h
    cases heq
    exact .num d (scanNum_spec hscan).2

/-! ## Lists of elements -/

section Elems

variable {α : Type} {close : UInt8} {p : Bytes → Option (α × Bytes)}

/-- The first byte of an element: neither white space nor a closing bracket. -/
def StartsElem (s : Bytes) : Prop := ∃ b r, s = b :: r ∧ isEnd b = false

variable {s : Bytes}

theorem StartsElem.append (h : StartsElem s) (t : Bytes) : StartsElem (s ++ t) := by
  obtain ⟨b, r, rfl, hb⟩ := h
  exact ⟨b, r ++ t, rfl, hb⟩

theorem StartsElem.skipWs_eq (h : StartsElem s) : skipWs s = s := by
  obtain ⟨b, r, rfl, hb⟩ := h
  simp only [isEnd, Bool.or_eq_false_iff] at hb
  simp [skipWs, hb.2]

theorem skipWs_cons {b : UInt8} (h : isSpace b = false) (s : Bytes) : skipWs (b :: s) = b :: s := by
  simp [skipWs, h]

variable {a : α} {fuel : Nat}

theorem parseElems_comma {s' s'' : Bytes} (hp : p (skipWs s) = some (a, s'))
    (hs : skipWs s' = 44 :: s'') :
    parseElems close p (fuel + 1) s =
      (parseElems close p fuel s'').map fun (as, r) => (a :: as, r) := by
  simp [parseElems, hp, hs]

variable {as : List α} {pr : α → Bytes}

/-- Printed elements are parsed back. -/
theorem parseElems_joinComma (hclose : isEnd close = true) (hspace : isSpace close = false)
    (hcomma : close ≠ 44) (hne : as ≠ [])
    (hp : ∀ a ∈ as, ∀ rest, EndsValue rest → p (pr a ++ rest) = some (a, rest))
    (hstart : ∀ a ∈ as, StartsElem (pr a)) (hfuel : as.length ≤ fuel) (rest : Bytes) :
    parseElems close p fuel (joinComma (as.map pr) ++ close :: rest) = some (as, rest) := by
  induction as generalizing fuel with
  | nil => exact absurd rfl hne
  | cons a as ih =>
    obtain ⟨fuel, rfl⟩ : ∃ n, fuel = n + 1 := ⟨fuel - 1, by simp at hfuel; omega⟩
    have hskip : ∀ t, skipWs (pr a ++ t) = pr a ++ t := fun t =>
      ((hstart a (by simp)).append t).skipWs_eq
    cases as with
    | nil =>
      have hends : EndsValue (close :: rest) := by
        rintro b ⟨⟩
        exact hclose
      simp [joinComma, parseElems, hskip, hp a (by simp) _ hends, skipWs_cons hspace, hcomma]
    | cons a' as =>
      have hends : EndsValue (44 :: (joinComma ((a' :: as).map pr) ++ close :: rest)) := by
        rintro b ⟨⟩
        rfl
      have hfuel' : (a' :: as).length ≤ fuel := by
        simp only [length_cons] at hfuel ⊢
        omega
      have htail := ih (by simp) (fun x hx => hp x (by simp [hx]))
        (fun x hx => hstart x (by simp [hx])) hfuel'
      have hstep := hp a (by simp) _ hends
      rw [← hskip] at hstep
      rw [map_cons, map_cons, joinComma, ← map_cons, List.append_assoc,
        cons_append, parseElems_comma hstep (skipWs_cons rfl _), htail]
      rfl

theorem length_le_joinComma {l : List Bytes} (h : ∀ s ∈ l, StartsElem s) :
    l.length ≤ (joinComma l).length := by
  induction l with
  | nil => simp
  | cons s l ih =>
    have hpos : 1 ≤ s.length := by
      obtain ⟨b, r, rfl, _⟩ := h s (by simp)
      simp
    cases l with
    | nil => simpa [joinComma] using hpos
    | cons s' l =>
      have := ih fun x hx => h x (by simp [hx])
      simp only [joinComma, length_append, length_cons] at this ⊢
      omega

theorem parseList_joinComma (hclose : isEnd close = true) (hspace : isSpace close = false)
    (hcomma : close ≠ 44)
    (hp : ∀ a ∈ as, ∀ rest, EndsValue rest → p (pr a ++ rest) = some (a, rest))
    (hstart : ∀ a ∈ as, StartsElem (pr a)) (rest : Bytes) :
    parseList close p (joinComma (as.map pr) ++ close :: rest) = some (as, rest) := by
  cases as with
  | nil => simp [parseList, joinComma, skipWs_cons hspace]
  | cons a as =>
    have hpr : ∀ s ∈ (a :: as).map pr, StartsElem s := by
      intro s hs
      obtain ⟨x, hx, rfl⟩ := mem_map.mp hs
      exact hstart x hx
    have hfirst : StartsElem (joinComma ((a :: as).map pr) ++ close :: rest) := by
      cases as with
      | nil => exact (hstart a (by simp)).append _
      | cons a' as =>
        rw [map_cons, map_cons, joinComma, List.append_assoc]
        exact (hstart a (by simp)).append _
    have hfuel : (a :: as).length ≤ (joinComma ((a :: as).map pr) ++ close :: rest).length := by
      have := length_le_joinComma hpr
      rw [List.length_map] at this
      rw [length_append]
      omega
    have helems := parseElems_joinComma hclose hspace hcomma (by simp) hp hstart hfuel rest
    unfold parseList
    rw [hfirst.skipWs_eq]
    obtain ⟨b, r, heq, hb⟩ := hfirst
    have hbc : b ≠ close := by
      rintro rfl
      rw [hclose] at hb
      cases hb
    rw [heq] at helems ⊢
    show (if b = close then _ else _) = _
    rw [if_neg hbc]
    exact helems

theorem mem_of_parseElems {r : Bytes} (h : parseElems close p fuel s = some (as, r)) (ha : a ∈ as) :
    ∃ s' r', p s' = some (a, r') := by
  induction fuel generalizing s as with
  | zero => cases h
  | succ fuel ih =>
    simp only [parseElems] at h
    split at h
    · cases h
    · rename_i a' s' hp
      split at h
      · cases h
      · split at h
        · obtain ⟨⟨as', r'⟩, htail, heq⟩ := map_eq_some_iff.mp h
          cases heq
          rcases mem_cons.mp ha with rfl | ha
          · exact ⟨_, _, hp⟩
          · exact ih htail ha
        · split at h
          · cases h
            obtain rfl := List.mem_singleton.mp ha
            exact ⟨_, _, hp⟩
          · cases h

theorem mem_of_parseList {r : Bytes} (h : parseList close p s = some (as, r)) (ha : a ∈ as) :
    ∃ s' r', p s' = some (a, r') := by
  unfold parseList at h
  split at h
  · cases h
  · split at h
    · cases h
      cases ha
    · exact mem_of_parseElems h ha

variable {q : Bytes → Option (α × Bytes)} {x : List α × Bytes}

/-- A parser of elements that parses more parses longer lists. -/
theorem parseElems_mono (hpq : ∀ s x, p s = some x → q s = some x)
    (h : parseElems close p fuel s = some x) : parseElems close q fuel s = some x := by
  induction fuel generalizing s x with
  | zero => cases h
  | succ fuel ih =>
    simp only [parseElems] at h ⊢
    split at h
    · cases h
    · rename_i a' s' hp
      simp only [hpq _ _ hp]
      split at h
      · cases h
      · split at h
        · rename_i hb
          obtain ⟨y, htail, heq⟩ := map_eq_some_iff.mp h
          rw [if_pos hb, ih htail, map_some, heq]
        · rename_i hb
          rw [if_neg hb]
          exact h

theorem parseList_mono (hpq : ∀ s x, p s = some x → q s = some x)
    (h : parseList close p s = some x) : parseList close q s = some x := by
  unfold parseList at h ⊢
  split at h
  · cases h
  · rename_i b r hs
    split at h
    · rename_i hb
      simpa [hb] using h
    · rename_i hb
      simpa [hb] using parseElems_mono hpq h

end Elems

/-! ## Values -/

theorem parseValue_scalar (harr : ∀ r, s ≠ 91 :: r) (hobj : ∀ r, s ≠ 123 :: r) (d : Nat) :
    parseValue d s = parseScalar s := by
  cases d with
  | zero => rfl
  | succ d =>
    unfold parseValue
    split
    · exact absurd rfl (harr _)
    · exact absurd rfl (hobj _)
    · rfl

variable {α : Type} {p : Bytes → Option (α × Bytes)} {a : α}

theorem parseMember_printMember {key v : Bytes} (hkey : IsRaw key) (hstart : StartsElem v)
    (hp : p (v ++ rest) = some (a, rest)) :
    parseMember p (printMember key v ++ rest) = some ((key, a), rest) := by
  have hscan : scanString .normal (key ++ 34 :: 58 :: (v ++ rest)) =
      some (key, 58 :: (v ++ rest)) := scanString_eq_some_iff.mpr ⟨hkey, rfl⟩
  have hskip : skipWs (v ++ rest) = v ++ rest := (hstart.append rest).skipWs_eq
  simp [printMember, parseMember, hscan, skipWs_cons (show isSpace 58 = false from rfl), hskip, hp]

theorem withText_append (h : p (s ++ rest) = some (a, rest)) :
    withText p (s ++ rest) = some ((s, a), rest) := by
  simp [withText, h]

variable {q : Bytes → Option (α × Bytes)}

theorem withText_mono (hpq : ∀ s x, p s = some x → q s = some x) (s : Bytes)
    (x : (Bytes × α) × Bytes) (h : withText p s = some x) : withText q s = some x := by
  obtain ⟨y, hp, heq⟩ := map_eq_some_iff.mp h
  rw [withText, hpq _ _ hp, map_some, heq]

theorem isEnd_false_of_num (h : b = 45 ∨ isDigit b = true) : isEnd b = false := by
  cases hb : isEnd b with
  | false => rfl
  | true =>
    simp only [isEnd, isSpace, Bool.or_eq_true, beq_iff_eq] at hb
    rcases hb with ((rfl | rfl) | rfl) | ((rfl | rfl) | rfl) | rfl <;>
      exact absurd h (by decide)

variable {d : Nat}

theorem Lit.startsElem (h : Lit d t) : StartsElem t.print := by
  cases h with
  | null | str _ hraw | arr hitems | obj hkeys hmembers => exact ⟨_, _, rfl, rfl⟩
  | bool b => cases ‹Bool› <;> exact ⟨_, _, rfl, rfl⟩
  | num _ hnum =>
    obtain ⟨b, l, rfl, hb⟩ := isNum_head hnum
    exact ⟨b, l, rfl, isEnd_false_of_num hb⟩

theorem startsElem_printMember (key v : Bytes) : StartsElem (printMember key v) :=
  ⟨_, _, rfl, rfl⟩

/-- The printed tree is parsed back, and what follows it is left. -/
theorem parseValue_print (h : Lit d t) (hrest : EndsValue rest) :
    parseValue d (t.print ++ rest) = some (t, rest) := by
  -- over the tree of literals; only arrays and objects use the induction hypothesis
  induction h generalizing rest with
  | null d => exact parseValue_scalar (by simp [print]) (by simp [print]) d
  | bool d b => cases b <;> exact parseValue_scalar (by simp [print]) (by simp [print]) d
  | @num d lit hnum =>
    obtain ⟨b, l, rfl, hb⟩ := isNum_head hnum
    have hne : ∀ c, c = 91 ∨ c = 123 → b ≠ c := by
      rintro c hc rfl
      rcases hc with rfl | rfl <;> exact absurd hb (by decide)
    rw [parseValue_scalar]
    · exact parseScalar_num hnum hrest
    · intro r heq
      exact hne 91 (by simp) (List.cons.inj heq).1
    · intro r heq
      exact hne 123 (by simp) (List.cons.inj heq).1
  | @str d raw hraw =>
    have hprint : (str raw).print ++ rest = 34 :: raw ++ 34 :: rest := by simp [print]
    rw [hprint, parseValue_scalar (by simp) (by simp)]
    exact parseScalar_str hraw rest
  | @arr d items hitems ih =>
    have hlist : parseList 93 (parseValue d) _ = some (items, rest) :=
      parseList_joinComma rfl rfl (by decide) (fun t ht rest => ih t ht)
        (fun t ht => (hitems t ht).startsElem) rest
    simp [print, printItems_eq, parseValue, hlist]
  | @obj d members hkeys hmembers ih =>
    have hmember : ∀ m ∈ members, ∀ rest, EndsValue rest →
        parseMember (parseValue d) (printMember m.1 m.2.print ++ rest) = some (m, rest) :=
      fun m hm rest hrest => parseMember_printMember (hkeys m hm) (hmembers m hm).startsElem
        (ih m hm hrest)
    have hlist : parseList 125 (parseMember (parseValue d)) _ = some (members, rest) :=
      parseList_joinComma rfl rfl (by decide) hmember (fun m _ => startsElem_printMember _ _) rest
    simp [print, printMembers_eq, parseValue, hlist]

theorem parse_print (h : Lit maxNestingDepth t) : parse t.print = some t := by
  have hvalue : parseValue maxNestingDepth (t.print ++ []) = some (t, []) :=
    parseValue_print h (by simp [EndsValue])
  rw [List.append_nil] at hvalue
  simp [parse, h.startsElem.skipWs_eq, hvalue]

theorem isRaw_and_of_parseMember {m : Bytes × α} (h : parseMember p s = some (m, r)) :
    IsRaw m.1 ∧ ∃ s' r', p s' = some (m.2, r') := by
  unfold parseMember at h
  split at h
  · split at h
    · cases h
    · rename_i key s' hscan
      split at h
      · obtain ⟨⟨v, r'⟩, hp, heq⟩ := map_eq_some_iff.mp h
        cases heq
        exact ⟨(scanString_eq_some_iff.mp hscan).1, _, _, hp⟩
      · cases h
  · cases h

theorem lit_of_parseValue (h : parseValue d s = some (t, r)) : Lit d t := by
  induction d generalizing s r t with
  | zero => exact lit_of_parseScalar 0 h
  | succ d ih =>
    unfold parseValue at h
    split at h
    · obtain ⟨⟨items, r'⟩, hlist, heq⟩ := map_eq_some_iff.mp h
      cases heq
      refine .arr fun t ht => ?_
      obtain ⟨s', r', hp⟩ := mem_of_parseList hlist ht
      exact ih hp
    · obtain ⟨⟨members, r'⟩, hlist, heq⟩ := map_eq_some_iff.mp h
      cases heq
      have hmember : ∀ m ∈ members, IsRaw m.1 ∧ Lit d m.2 := by
        intro m hm
        obtain ⟨s', r', hp⟩ := mem_of_parseList hlist hm
        obtain ⟨hkey, _, _, hv⟩ := isRaw_and_of_parseMember hp
        exact ⟨hkey, ih hv⟩
      exact .obj (fun m hm => (hmember m hm).1) (fun m hm => (hmember m hm).2)
    · exact lit_of_parseScalar _ h

theorem lit_of_parse (h : parse s = some t) : Lit maxNestingDepth t := by
  unfold parse at h
  split at h
  · cases h
  · rename_i hvalue
    split at h
    · cases h
      exact lit_of_parseValue hvalue
    · cases h

theorem parseMember_mono (hpq : ∀ s x, p s = some x → q s = some x) (s : Bytes)
    (x : (Bytes × α) × Bytes) (h : parseMember p s = some x) : parseMember q s = some x := by
  unfold parseMember at h ⊢
  split at h
  · split at h
    · cases h
    · split at h
      · obtain ⟨y, hp, heq⟩ := map_eq_some_iff.mp h
        rw [hpq _ _ hp, map_some, heq]
      · cases h
  · cases h

variable {x : Json × Bytes}

/-- More depth parses the same. -/
theorem parseValue_mono (h : parseValue d s = some x) : parseValue (d + 1) s = some x := by
  induction d generalizing s x with
  | zero =>
    unfold parseValue
    split
    · cases h
    · cases h
    · exact h
  | succ d ih =>
    unfold parseValue at h ⊢
    split at h
    · obtain ⟨y, hlist, heq⟩ := map_eq_some_iff.mp h
      rw [parseList_mono (fun _ _ => ih) hlist, map_some, heq]
    · obtain ⟨y, hlist, heq⟩ := map_eq_some_iff.mp h
      rw [parseList_mono (parseMember_mono fun _ _ => ih) hlist, map_some, heq]
    · exact h

variable {d' : Nat}

theorem parseValue_mono_le (hle : d ≤ d') (h : parseValue d s = some x) :
    parseValue d' s = some x := by
  induction hle with
  | refl => exact h
  | step _ ih => exact parseValue_mono ih

/-- A text that is parsed with less depth nests no deeper. -/
theorem lit_of_parseValue_isSome (hd : d ≤ maxNestingDepth) (h : parse s = some t)
    (hsome : (parseValue d (skipWs s)).isSome = true) : Lit d t := by
  obtain ⟨⟨u, r⟩, hu⟩ := Option.isSome_iff_exists.mp hsome
  have hfull := parseValue_mono_le hd hu
  unfold parse at h
  rw [hfull] at h
  simp only at h
  split at h
  · cases h
    exact lit_of_parseValue hu
  · cases h

/-! ## Compacting -/

variable {f : Bytes → Bytes}

theorem Lit.mapStr (hf : ∀ raw, IsRaw raw → IsRaw (f raw)) (h : Lit d t) : Lit d (t.mapStr f) := by
  induction h with
  | null d => exact .null d
  | bool d b => exact .bool d b
  | num d hnum => exact .num d hnum
  | str d hraw => exact .str d (hf _ hraw)
  | arr hitems ih =>
    rw [Json.mapStr, mapStrItems_eq]
    refine .arr fun t ht => ?_
    obtain ⟨u, hu, rfl⟩ := mem_map.mp ht
    exact ih u hu
  | obj hkeys hmembers ih =>
    rw [Json.mapStr, mapStrMembers_eq]
    refine .obj (fun m hm => ?_) (fun m hm => ?_)
    · obtain ⟨u, hu, rfl⟩ := mem_map.mp hm
      exact hf _ (hkeys u hu)
    · obtain ⟨u, hu, rfl⟩ := mem_map.mp hm
      exact ih u hu

theorem Lit.of_mapStr (ht : Lit d' t) (h : Lit d (t.mapStr f)) : Lit d t := by
  induction ht generalizing d with
  | null => exact .null d
  | bool _ b => exact .bool d b
  | num _ hnum => exact .num d hnum
  | str _ hraw => exact .str d hraw
  | arr _ ih =>
    rw [Json.mapStr, mapStrItems_eq] at h
    cases h with
    | arr hitems => exact .arr fun t ht => ih t ht (hitems _ (List.mem_map_of_mem ht))
  | obj hkeys _ ih =>
    rw [Json.mapStr, mapStrMembers_eq] at h
    cases h with
    | obj _ hmembers =>
      exact .obj hkeys fun m hm => ih m hm (hmembers _ (List.mem_map_of_mem (f := fun m =>
        (f m.1, m.2.mapStr f)) hm))

theorem Lit.value_mapStr (hf : ∀ raw, IsRaw raw → unquoted (f raw) = unquoted raw) (h : Lit d t) :
    (t.mapStr f).value = t.value := by
  induction h with
  | null | bool | num => rfl
  | str d hraw => exact congrArg Json.str (hf _ hraw)
  | arr hitems ih =>
    simp only [value, Json.mapStr, mapStrItems_eq, map_map] at ih ⊢
    exact congrArg Json.arr (List.map_congr_left ih)
  | obj hkeys hmembers ih =>
    simp only [value, Json.mapStr, mapStrMembers_eq, map_map] at ih ⊢
    refine congrArg Json.obj (List.map_congr_left fun m hm => ?_)
    exact Prod.ext (hf _ (hkeys m hm)) (ih m hm)

theorem unquoted_escapeRaw (h : IsRaw raw) : unquoted (escapeRaw raw) = unquoted raw := by
  rw [unquoted, unquoted, unquote_escapeRaw h]

/-- A compacted text is a text for the same value. -/
theorem parse_compact {c : Bytes} (h : compact s = some c) : Equiv s c := by
  obtain ⟨t, ht, rfl⟩ := map_eq_some_iff.mp h
  have hlit := lit_of_parse ht
  exact ⟨t, _, ht, parse_print (hlit.mapStr fun _ => isRaw_escapeRaw),
    (hlit.value_mapStr fun _ => unquoted_escapeRaw).symm⟩

/-! ## The length of an object -/

variable {l : List Bytes}

theorem length_joinComma (h : l ≠ []) :
    (joinComma l).length + 1 = (l.map fun s => s.length + 1).sum := by
  induction l with
  | nil => exact absurd rfl h
  | cons s l ih =>
    cases l with
    | nil => simp [joinComma]
    | cons s' l =>
      have htail := ih (by simp)
      simp only [joinComma, length_append, length_cons, map_cons,
        List.sum_cons] at htail ⊢
      omega

/-- The length of an object that has members: each has two quotes, a colon, and a comma or
    brace. -/
theorem length_print_obj {ms : List (Bytes × Json)} (h : ms ≠ []) :
    (obj ms).print.length = (ms.map fun m => m.1.length + m.2.print.length + 4).sum + 1 := by
  have hne : printMembers ms ≠ [] := by
    rw [printMembers_eq]
    simpa using h
  have hsizes : ((printMembers ms).map fun s => s.length + 1) =
      ms.map fun m => m.1.length + m.2.print.length + 4 := by
    rw [printMembers_eq, map_map]
    refine List.map_congr_left fun m _ => ?_
    simp only [Function.comp_apply, printMember, length_cons, length_append]
    omega
  have hlen := length_joinComma hne
  rw [hsizes] at hlen
  rw [print, length_append, length_cons, List.length_singleton]
  omega

/-! ## Nested arrays -/

/-- `n + 1` arrays around each other. -/
def nested : Nat → Json
  | 0 => arr []
  | n + 1 => arr [nested n]

variable (n : Nat)

theorem print_nested :
    (nested n).print = List.replicate (n + 1) 91 ++ List.replicate (n + 1) 93 := by
  induction n with
  | zero => rfl
  | succ n ih =>
    rw [nested, print, printItems, printItems, ih, joinComma, List.replicate_succ (n := n + 1),
      List.replicate_succ' (n := n + 1) (a := 93)]
    simp

theorem length_print_nested : (nested n).print.length = 2 * (n + 1) := by
  rw [print_nested, length_append, List.length_replicate, List.length_replicate]
  omega

theorem print_nested_ne_nil : (nested n).print ≠ [] := by
  rw [← List.length_pos_iff, length_print_nested]
  omega

theorem lit_nested : Lit (n + 1) (nested n) := by
  induction n with
  | zero => exact .arr (by simp)
  | succ n ih => exact .arr (by simpa using ih)

theorem not_lit_nested : ¬ Lit n (nested n) := by
  induction n with
  | zero =>
    intro h
    cases h
  | succ n ih =>
    intro h
    cases h with
    | arr hitems => exact ih (hitems _ (by simp))

theorem mapStr_nested (f : Bytes → Bytes) (n : Nat) : (nested n).mapStr f = nested n := by
  induction n with
  | zero => rfl
  | succ n ih => rw [nested, mapStr, mapStrItems, mapStrItems, ih]

theorem Lit.mono (hle : d ≤ d') (h : Lit d t) : Lit d' t := by
  induction h generalizing d' with
  | null => exact .null d'
  | bool _ b => exact .bool d' b
  | num _ hnum => exact .num d' hnum
  | str _ hraw => exact .str d' hraw
  | arr _ ih =>
    obtain ⟨d', rfl⟩ : ∃ n, d' = n + 1 := ⟨d' - 1, by omega⟩
    exact .arr fun t ht => ih t ht (by omega)
  | obj hkeys _ ih =>
    obtain ⟨d', rfl⟩ : ∃ n, d' = n + 1 := ⟨d' - 1, by omega⟩
    exact .obj hkeys fun m hm => ih m hm (by omega)

/-! ## No control characters -/

variable {st' : StrState}

theorem le_of_strStep {st : StrState} (h : strStep st b = some st') : 32 ≤ b.toNat := by
  cases st with
  | normal =>
    simp only [strStep] at h
    split at h
    · cases h
    · rename_i hstop
      omega
  | esc =>
    simp only [strStep] at h
    split at h
    · rename_i hc
      simp only [isSimpleEscape, Bool.or_eq_true, beq_iff_eq] at hc
      rcases hc with ((((((rfl | rfl) | rfl) | rfl) | rfl) | rfl) | rfl) | rfl <;> decide
    · split at h
      · subst b
        decide
      · cases h
  | hex n =>
    simp only [strStep] at h
    split at h
    · cases h
    · rename_i hhex
      obtain ⟨v, hv⟩ := Option.ne_none_iff_exists'.mp (by simpa using hhex)
      unfold hexVal at hv
      split at hv
      · omega
      · split at hv
        · omega
        · split at hv
          · omega
          · cases hv

theorem le_of_numStep {st' : NumState} (h : numStep st b = some st') : 32 ≤ b.toNat := by
  have hdigit : isDigit b = true → 32 ≤ b.toNat := by
    simp only [isDigit, decide_eq_true_eq]
    omega
  have hsign : b = 43 ∨ b = 45 ∨ b = 46 ∨ b = 48 ∨ b = 69 ∨ b = 101 → 32 ≤ b.toNat := by
    rintro (rfl | rfl | rfl | rfl | rfl | rfl) <;> decide
  cases st <;> grind [numStep]

/-- The bytes of an automaton's run, if each step has read one of `P`. -/
theorem forall_mem_of_foldlM {σ : Type} {step : σ → UInt8 → Option σ} {P : UInt8 → Prop}
    (hstep : ∀ st b st', step st b = some st' → P b) {st st' : σ}
    (h : s.foldlM step st = some st') : ∀ b ∈ s, P b := by
  induction s generalizing st with
  | nil => simp
  | cons b s ih =>
    obtain ⟨st₁, hfirst, hrest⟩ := Option.bind_eq_some_iff.mp h
    exact List.forall_mem_cons.mpr ⟨hstep _ _ _ hfirst, ih hrest⟩

theorem forall_mem_joinComma {P : UInt8 → Prop} (hcomma : P 44)
    (h : ∀ s ∈ l, ∀ b ∈ s, P b) : ∀ b ∈ joinComma l, P b := by
  induction l with
  | nil => simp [joinComma]
  | cons s l ih =>
    obtain ⟨hs, hl⟩ := List.forall_mem_cons.mp h
    cases l with
    | nil => exact hs
    | cons s' l =>
      exact List.forall_mem_append.mpr ⟨hs, List.forall_mem_cons.mpr ⟨hcomma, ih hl⟩⟩

/-- A printed text has no control characters. -/
theorem Lit.le_of_mem_print (h : Lit d t) : ∀ b ∈ t.print, 32 ≤ b.toNat := by
  have hstr : ∀ raw, IsRaw raw → ∀ b ∈ raw, 32 ≤ b.toNat :=
    fun _ hraw => forall_mem_of_foldlM (fun _ _ _ => le_of_strStep) hraw
  induction h with
  | null => decide +kernel
  | bool _ b => cases b <;> decide +kernel
  | num _ hnum =>
    obtain ⟨st, hst, _⟩ := Option.any_eq_true _ _ |>.mp hnum
    exact forall_mem_of_foldlM (fun _ _ _ => le_of_numStep) hst
  | str _ hraw => simpa [print, or_imp, forall_and] using hstr _ hraw
  | arr _ ih =>
    have hitems := forall_mem_joinComma (by decide) (List.forall_mem_map.mpr ih)
    simpa [print, printItems_eq, or_imp, forall_and] using hitems
  | @obj _ members hkeys _ ih =>
    have hmembers : ∀ m ∈ members, ∀ b ∈ printMember m.1 m.2.print, 32 ≤ b.toNat := fun m hm => by
      simpa [printMember, or_imp, forall_and] using ⟨hstr _ (hkeys m hm), ih m hm⟩
    have hjoined := forall_mem_joinComma (by decide) (List.forall_mem_map.mpr hmembers)
    simpa [print, printMembers_eq, or_imp, forall_and] using hjoined

end Json
