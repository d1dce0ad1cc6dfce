import MockAgents.ForStd.Json
import Mathlib.Data.List.TakeWhile

/-!
# The text of a value

A parser that succeeds has taken a text off the front, and reads the same from that text
whatever follows it. So the white space around a value does not matter, and trimming a JSON
text does not change its value.
-/

namespace Json

open Bytes (Seg segs trimSpace)
open List (append_assoc append_nil cons_append)

/-! ## Texts without white space around them -/

/-- An ASCII byte that is no white space. -/
def isInk (b : UInt8) : Bool := decide (b.toNat < 0x80) && !Seg.isSpace (.ascii b)

variable {b : UInt8}

theorem isInk_iff : isInk b = true ↔ b.toNat < 0x80 ∧ Seg.isSpace (.ascii b) = false := by
  simp [isInk]

/-- The text starts and ends with ASCII bytes that are no white space. -/
structure Solid (x : Bytes) : Prop where
  head : ∃ b t, x = b :: t ∧ isInk b = true
  last : ∃ t c, x = t ++ [c] ∧ isInk c = true

theorem seg_isSpace_of_isSpace (h : isSpace b = true) :
    b.toNat < 0x80 ∧ Seg.isSpace (.ascii b) = true := by
  simp only [isSpace, Bool.or_eq_true, beq_iff_eq] at h
  rcases h with ((rfl | rfl) | rfl) | rfl <;> decide

theorem isSpace_of_isInk (h : isInk b = true) : isSpace b = false := by
  cases hb : isSpace b with
  | false => rfl
  | true =>
    have hspace := (seg_isSpace_of_isSpace hb).2
    rw [(isInk_iff.mp h).2] at hspace
    cases hspace

theorem Solid.between {c : UInt8} (hb : isInk b = true) (hc : isInk c = true) (t : Bytes) :
    Solid (b :: t ++ [c]) :=
  ⟨⟨b, t ++ [c], rfl, hb⟩, ⟨b :: t, c, rfl, hc⟩⟩

variable {x : Bytes}

theorem Solid.length_pos (h : Solid x) : 1 ≤ x.length := by
  obtain ⟨b, t, rfl, _⟩ := h.head
  simp

variable {w : Bytes}

private theorem segs_white (hw : ∀ b ∈ w, isSpace b = true) (s : Bytes) :
    segs (w ++ s) = w.map Seg.ascii ++ segs s := by
  induction w with
  | nil => rfl
  | cons b w ih =>
    have hb := (seg_isSpace_of_isSpace (hw b (by simp))).1
    rw [cons_append, Bytes.segs_ascii hb, ih fun c hc => hw c (by simp [hc])]
    rfl

private theorem all_space_map (hw : ∀ b ∈ w, isSpace b = true) :
    ∀ g ∈ w.map Seg.ascii, Seg.isSpace g = true := by
  intro g hg
  obtain ⟨b, hb, rfl⟩ := List.mem_map.mp hg
  exact (seg_isSpace_of_isSpace (hw b hb)).2

/-- Trimming takes the white space around a solid text away. -/
theorem Solid.trimSpace_eq {w' : Bytes} (h : Solid x) (hw : ∀ b ∈ w, isSpace b = true)
    (hw' : ∀ b ∈ w', isSpace b = true) : trimSpace (w ++ x ++ w') = x := by
  obtain ⟨b, t, hhead, hb⟩ := h.head
  obtain ⟨t', c, hlast, hc⟩ := h.last
  obtain ⟨hb, hbs⟩ := isInk_iff.mp hb
  obtain ⟨hc, hcs⟩ := isInk_iff.mp hc
  have hfirst : ∃ l, segs x = Seg.ascii b :: l := ⟨segs t, by rw [hhead, Bytes.segs_ascii hb]⟩
  have hend : ∃ l, segs x = l ++ [Seg.ascii c] :=
    ⟨segs t', by rw [hlast, Bytes.segs_append_cons hc, Bytes.segs_ascii hc, Bytes.segs_nil]⟩
  -- the white space behind `x` starts with an ASCII byte, which ends the segments of `x`
  have hsegs : segs (w ++ x ++ w') = w.map Seg.ascii ++ (segs x ++ w'.map Seg.ascii) := by
    rw [append_assoc, segs_white hw]
    cases w' with
    | nil => simp
    | cons b' w' =>
      have hrest := segs_white hw' []
      rw [append_nil, Bytes.segs_nil, append_nil] at hrest
      rw [Bytes.segs_append_cons (seg_isSpace_of_isSpace (hw' b' (by simp))).1, hrest]
  have hback : ((w'.map Seg.ascii).reverse ++ (segs x).reverse).dropWhile Seg.isSpace =
      (segs x).reverse := by
    obtain ⟨l, hl⟩ := hend
    rw [List.dropWhile_append_of_pos fun g hg => all_space_map hw' g (List.mem_reverse.mp hg),
      hl, List.reverse_append, List.reverse_singleton, List.singleton_append,
      List.dropWhile_cons_of_neg (by simp [hcs])]
  have hfront : (segs x ++ w'.map Seg.ascii).dropWhile Seg.isSpace =
      segs x ++ w'.map Seg.ascii := by
    obtain ⟨l, hl⟩ := hfirst
    rw [hl, cons_append, List.dropWhile_cons_of_neg (by simp [hbs])]
  rw [trimSpace, hsegs, List.dropWhile_append_of_pos (all_space_map hw), hfront,
    List.reverse_append, hback, List.reverse_reverse, Bytes.flatMap_segs]

/-! ## White space -/

theorem exists_white (s : Bytes) : ∃ w, s = w ++ skipWs s ∧ ∀ b ∈ w, isSpace b = true :=
  ⟨s.takeWhile isSpace, (List.takeWhile_append_dropWhile).symm,
    fun _ hb => List.mem_takeWhile_imp hb⟩

theorem skipWs_white (hw : ∀ b ∈ w, isSpace b = true) (hb : isSpace b = false) (s : Bytes) :
    skipWs (w ++ b :: s) = b :: s := by
  rw [skipWs, List.dropWhile_append_of_pos hw]
  exact skipWs_cons hb s

theorem Solid.skipWs_eq (h : Solid x) (hw : ∀ b ∈ w, isSpace b = true) (s : Bytes) :
    skipWs (w ++ (x ++ s)) = x ++ s := by
  obtain ⟨b, t, rfl, hb⟩ := h.head
  exact skipWs_white hw (isSpace_of_isInk hb) _

/-- What the white space in front of a closed list is followed by does not depend on what
    follows the list. -/
theorem skipWs_closed {close : UInt8} (hclose : isSpace close = false) (t : Bytes) :
    ∃ b x, ∀ r, skipWs (t ++ close :: r) = b :: (x ++ r) := by
  obtain ⟨w, hw, hspaces⟩ := exists_white t
  cases hskip : skipWs t with
  | nil =>
    rw [hskip, append_nil] at hw
    refine ⟨close, [], fun r => ?_⟩
    rw [hw, skipWs_white hspaces hclose]
    rfl
  | cons b t' =>
    have hb : isSpace b = false := by
      have hhead := List.head?_dropWhile_not isSpace t
      rw [← skipWs, hskip] at hhead
      simpa using hhead
    refine ⟨b, t' ++ [close], fun r => ?_⟩
    rw [hw, hskip, append_assoc, cons_append, skipWs_white hspaces hb]
    simp

theorem endsValue_white (hw : ∀ b ∈ w, isSpace b = true) (hb : isEnd b = true) (s : Bytes) :
    EndsValue (w ++ b :: s) := by
  cases w with
  | nil =>
    rintro c ⟨⟩
    exact hb
  | cons c w =>
    rintro c' ⟨⟩
    have hc := hw c (by simp)
    simp [isEnd, hc]

/-! ## Parsers that take a text off the front -/

section Consumes

variable {α : Type}

/-- `p` takes a solid text off the front, and takes the same off it whatever follows. -/
def Consumes (p : Bytes → Option (α × Bytes)) : Prop :=
  ∀ s a r, p s = some (a, r) →
    ∃ x, s = x ++ r ∧ Solid x ∧ ∀ r', EndsValue r' → p (x ++ r') = some (a, r')

variable {p : Bytes → Option (α × Bytes)} {close : UInt8}

/-- The elements up to a closing bracket, which is the last byte of their text. -/
theorem parseElems_text (hp : Consumes p) (hclose : isEnd close = true)
    (hspace : isSpace close = false) (hcomma : close ≠ 44) {fuel : Nat} {s r : Bytes}
    {as : List α} (h : parseElems close p fuel s = some (as, r)) :
    ∃ t, s = t ++ close :: r ∧ as.length ≤ t.length ∧
      ∀ fuel' r', as.length ≤ fuel' →
        parseElems close p fuel' (t ++ close :: r') = some (as, r') := by
  induction fuel generalizing s as with
  | zero => cases h
  | succ fuel ih =>
    rw [parseElems] at h
    obtain ⟨w, hw, hspaces⟩ := exists_white s
    split at h
    · cases h
    · rename_i a s₁ hfirst
      obtain ⟨x, hx, hsolid, hagain⟩ := hp _ _ _ hfirst
      obtain ⟨w', hw', hspaces'⟩ := exists_white s₁
      have hlen := hsolid.length_pos
      split at h
      · cases h
      · rename_i b s₂ hskip
        rw [hskip] at hw'
        split at h
        · -- a comma: the text of the other elements follows
          rename_i hb
          obtain ⟨⟨as', r₁⟩, hrest, heq⟩ := Option.map_eq_some_iff.mp h
          cases heq
          obtain ⟨t, ht, hcount, hrest'⟩ := ih hrest
          refine ⟨w ++ (x ++ (w' ++ 44 :: t)), ?_, ?_, ?_⟩
          · rw [hw, hx, hw', hb, ht]
            simp
          · simp only [List.length_cons, List.length_append]
            omega
          · intro fuel' r' hfuel
            obtain ⟨n, rfl⟩ : ∃ n, fuel' = n + 1 := ⟨fuel' - 1, by simp at hfuel; omega⟩
            have hends : EndsValue (w' ++ 44 :: (t ++ close :: r')) :=
              endsValue_white hspaces' rfl _
            have hstep := hagain _ hends
            rw [← hsolid.skipWs_eq hspaces] at hstep
            have hassoc : w ++ (x ++ (w' ++ 44 :: t)) ++ close :: r' =
                w ++ (x ++ (w' ++ 44 :: (t ++ close :: r'))) := by simp
            rw [hassoc, parseElems_comma hstep (skipWs_white hspaces' rfl _),
              hrest' n r' (by simp at hfuel; omega)]
            rfl
        · split at h
          · -- the closing bracket
            rename_i hb
            cases h
            refine ⟨w ++ (x ++ w'), ?_, ?_, ?_⟩
            · rw [hw, hx, hw', hb]
              simp
            · simp only [List.length_cons, List.length_nil, List.length_append]
              omega
            · intro fuel' r' hfuel
              obtain ⟨n, rfl⟩ : ∃ n, fuel' = n + 1 := ⟨fuel' - 1, by simp at hfuel; omega⟩
              have hends : EndsValue (w' ++ close :: r') := endsValue_white hspaces' hclose _
              have hassoc : w ++ (x ++ w') ++ close :: r' = w ++ (x ++ (w' ++ close :: r')) := by
                simp
              rw [hassoc, parseElems, hsolid.skipWs_eq hspaces, hagain _ hends]
              simp only [skipWs_white hspaces' hspace]
              simp [hcomma]
          · cases h

/-- The elements after an opening bracket, with their closing bracket. -/
theorem parseList_text (hp : Consumes p) (hclose : isEnd close = true)
    (hspace : isSpace close = false) (hcomma : close ≠ 44) {s r : Bytes} {as : List α}
    (h : parseList close p s = some (as, r)) :
    ∃ t, s = t ++ close :: r ∧
      ∀ r', parseList close p (t ++ close :: r') = some (as, r') := by
  unfold parseList at h
  obtain ⟨w, hw, hspaces⟩ := exists_white s
  split at h
  · cases h
  · rename_i b s₁ hskip
    split at h
    · rename_i hb
      cases h
      refine ⟨w, by rw [hw, hskip, hb], fun r' => ?_⟩
      rw [parseList, skipWs_white hspaces hspace]
      simp
    · rename_i hb
      obtain ⟨t, ht, hcount, hagain⟩ := parseElems_text hp hclose hspace hcomma h
      refine ⟨t, ht, fun r' => ?_⟩
      -- what follows the white space is the same byte as before
      obtain ⟨c, x, hkeep⟩ := skipWs_closed hspace t
      have hbefore := hkeep r
      rw [← ht, hskip] at hbefore
      obtain ⟨rfl, _⟩ := List.cons.inj hbefore
      rw [parseList, hkeep r']
      simp only [if_neg hb]
      exact hagain _ r' (by simp only [List.length_append]; omega)

theorem consumes_parseMember (hp : Consumes p) : Consumes (parseMember p) := by
  intro s m r h
  unfold parseMember at h
  split at h
  · split at h
    · cases h
    · rename_i key s₁ hscan
      obtain ⟨hkey, rfl⟩ := scanString_eq_some_iff.mp hscan
      obtain ⟨w, hw, hspaces⟩ := exists_white s₁
      split at h
      · rename_i s₂ hskip
        obtain ⟨⟨a, r₁⟩, hvalue, heq⟩ := Option.map_eq_some_iff.mp h
        cases heq
        obtain ⟨x, hx, hsolid, hagain⟩ := hp _ _ _ hvalue
        obtain ⟨w', hw', hspaces'⟩ := exists_white s₂
        refine ⟨34 :: (key ++ 34 :: (w ++ 58 :: (w' ++ x))), ?_, ?_, ?_⟩
        · rw [hw, hskip, hw', hx]
          simp
        · obtain ⟨t, c, rfl, hc⟩ := hsolid.last
          exact ⟨⟨34, _, rfl, rfl⟩,
            ⟨34 :: (key ++ 34 :: (w ++ 58 :: (w' ++ t))), c, by simp, hc⟩⟩
        · intro r' hr'
          have hscan' : scanString .normal (key ++ 34 :: (w ++ 58 :: (w' ++ (x ++ r')))) =
              some (key, w ++ 58 :: (w' ++ (x ++ r'))) := scanString_eq_some_iff.mpr ⟨hkey, rfl⟩
          simp [parseMember, hscan', skipWs_white hspaces (show isSpace 58 = false from rfl),
            hsolid.skipWs_eq hspaces', hagain r' hr']
      · cases h
  · cases h

end Consumes

/-! ## Values -/

variable {st : NumState}

/-- A number ends with a digit. -/
private theorem isDigit_of_accepts {st' : NumState} (h : numStep st b = some st')
    (hst : st'.accepts = true) : isDigit b = true := by
  by_contra hb
  rw [Bool.not_eq_true] at hb
  have hzero : b ≠ 48 := by
    rintro rfl
    cases hb
  -- every other byte leads to a state in which a number may not end
  have hreject : st'.accepts = false := by
    cases st <;> simp only [numStep, hb, hzero, Bool.false_eq_true, if_false] at h
    all_goals
      repeat' split at h
      all_goals cases h
      all_goals rfl
  rw [hreject] at hst
  cases hst

private theorem isInk_of_isDigit (h : isDigit b = true) : isInk b = true := by
  have hb : 48 ≤ b.toNat ∧ b.toNat ≤ 57 := of_decide_eq_true h
  have hne : b ≠ 32 := by
    rintro rfl
    exact absurd hb.1 (by decide)
  rw [isInk_iff]
  refine ⟨by omega, ?_⟩
  simp only [Seg.isSpace, Bool.or_eq_false_iff, decide_eq_false_iff_not, beq_eq_false_iff_ne]
  exact ⟨by omega, hne⟩

private theorem numSteps_last {t : Bytes} {c : UInt8}
    (h : (numSteps st (t ++ [c])).any NumState.accepts = true) : isDigit c = true := by
  induction t generalizing st with
  | nil =>
    rw [List.nil_append, numSteps_cons] at h
    cases hstep : numStep st c with
    | none =>
      rw [hstep] at h
      cases h
    | some st' =>
      rw [hstep] at h
      exact isDigit_of_accepts hstep h
  | cons b t ih =>
    rw [cons_append, numSteps_cons] at h
    cases hstep : numStep st b with
    | none =>
      rw [hstep] at h
      cases h
    | some st' =>
      rw [hstep] at h
      exact ih h

theorem solid_of_isNum {lit : Bytes} (h : isNum lit = true) : Solid lit := by
  obtain ⟨b, l, hlit, hb⟩ := isNum_head h
  refine ⟨⟨b, l, hlit, ?_⟩, ?_⟩
  · rcases hb with rfl | hb
    · rfl
    · exact isInk_of_isDigit hb
  · obtain ⟨t, c, htc⟩ : ∃ t c, lit = t ++ [c] :=
      ⟨lit.dropLast, lit.getLast (by simp [hlit]), (List.dropLast_append_getLast _).symm⟩
    refine ⟨t, c, htc, isInk_of_isDigit ?_⟩
    rw [htc] at h
    exact numSteps_last h

variable {s : Bytes}

theorem consumes_parseScalar : Consumes parseScalar := by
  intro s a r h
  unfold parseScalar at h
  split at h
  · obtain ⟨⟨raw, r₁⟩, hscan, heq⟩ := Option.map_eq_some_iff.mp h
    cases heq
    obtain ⟨hraw, rfl⟩ := scanString_eq_some_iff.mp hscan
    refine ⟨34 :: raw ++ [34], by simp, .between rfl rfl raw, fun r' _ => ?_⟩
    rw [append_assoc]
    exact parseScalar_str hraw r'
  · cases h
    exact ⟨[110, 117, 108, 108], rfl, .between rfl rfl [117, 108], fun _ _ => rfl⟩
  · cases h
    exact ⟨[116, 114, 117, 101], rfl, .between rfl rfl [114, 117], fun _ _ => rfl⟩
  · cases h
    exact ⟨[102, 97, 108, 115, 101], rfl, .between rfl rfl [97, 108, 115], fun _ _ => rfl⟩
  · obtain ⟨⟨lit, r₁⟩, hscan, heq⟩ := Option.map_eq_some_iff.mp h
    cases heq
    obtain ⟨hs, hnum⟩ := scanNum_spec hscan
    exact ⟨lit, hs, solid_of_isNum hnum, fun r' hr' =>
      parseScalar_num hnum hr'⟩

/-- A value is read from a text of its own. -/
theorem consumes_parseValue (depth : Nat) : Consumes (parseValue depth) := by
  induction depth with
  | zero => exact consumes_parseScalar
  | succ depth ih =>
    intro s a r h
    unfold parseValue at h
    split at h
    · obtain ⟨⟨items, r₁⟩, hlist, heq⟩ := Option.map_eq_some_iff.mp h
      cases heq
      obtain ⟨t, rfl, hagain⟩ := parseList_text ih rfl rfl (by decide) hlist
      refine ⟨91 :: t ++ [93], by simp, .between rfl rfl t, fun r' _ => ?_⟩
      simp [parseValue, hagain]
    · obtain ⟨⟨ms, r₁⟩, hlist, heq⟩ := Option.map_eq_some_iff.mp h
      cases heq
      obtain ⟨t, rfl, hagain⟩ :=
        parseList_text (consumes_parseMember ih) rfl rfl (by decide) hlist
      refine ⟨123 :: t ++ [125], by simp, .between rfl rfl t, fun r' _ => ?_⟩
      simp [parseValue, hagain]
    · rename_i hbracket hbrace
      obtain ⟨x, rfl, hsolid, hagain⟩ := consumes_parseScalar _ _ _ h
      refine ⟨x, rfl, hsolid, fun r' hr' => ?_⟩
      obtain ⟨b, t, rfl, _⟩ := hsolid.head
      rw [← hagain r' hr']
      unfold parseValue
      split
      · rename_i heq
        exact absurd (by rw [cons_append, (List.cons.inj heq).1]) (hbracket (t ++ r))
      · rename_i heq
        exact absurd (by rw [cons_append, (List.cons.inj heq).1]) (hbrace (t ++ r))
      · rfl

/-- A text that is parsed is the text of its value with white space around it. -/
theorem text_of_parse {t : Json} (h : parse s = some t) :
    ∃ x w w', s = w ++ x ++ w' ∧ (∀ b ∈ w, isSpace b = true) ∧ (∀ b ∈ w', isSpace b = true) ∧
      Solid x ∧ parse x = some t := by
  unfold parse at h
  obtain ⟨w, hw, hspaces⟩ := exists_white s
  split at h
  · cases h
  · rename_i t' r hvalue
    obtain ⟨hend, ⟨⟩⟩ := Option.ite_none_right_eq_some.mp h
    obtain ⟨x, hx, hsolid, hagain⟩ := consumes_parseValue _ _ _ _ hvalue
    obtain ⟨w', hw', hspaces'⟩ := exists_white r
    rw [hend, append_nil] at hw'
    refine ⟨x, w, r, by rw [append_assoc, ← hx, ← hw], hspaces, hw' ▸ hspaces', hsolid, ?_⟩
    have hskip := hsolid.skipWs_eq (w := []) (by simp) []
    rw [List.nil_append, append_nil] at hskip
    have hparse := hagain [] (by rintro b ⟨⟩)
    rw [append_nil] at hparse
    simp [parse, hskip, hparse]

theorem parse_trimSpace {t : Json} (h : parse s = some t) : parse (trimSpace s) = some t := by
  obtain ⟨x, w, w', rfl, hw, hw', hsolid, hx⟩ := text_of_parse h
  rw [hsolid.trimSpace_eq hw hw', hx]

theorem valid_trimSpace (h : valid s = true) : valid (trimSpace s) = true := by
  obtain ⟨t, ht⟩ := Option.isSome_iff_exists.mp h
  rw [valid, parse_trimSpace ht]
  rfl

end Json
