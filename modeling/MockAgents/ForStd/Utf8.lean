import MockAgents.ForStd.Bytes

/-!
# UTF-8

Go reads a string as UTF-8 one rune at a time, and takes a byte that starts no valid
encoding as an error of width one. `Bytes.segs` cuts a byte string that way. Every
function on strings that looks at runes is a function on the segments, and
`Bytes.segInduction` is the matching induction.
-/

namespace Bytes

open List (all_cons cons_append flatMap_cons mem_cons)

/-- A piece of a byte string: an ASCII byte, a longer valid encoding of a rune, or a byte
    that starts none. -/
inductive Seg where
  | ascii (b : UInt8)
  | rune (bs : Bytes)
  | bad (b : UInt8)
  deriving DecidableEq

/-- A continuation byte. -/
def isCont (b : UInt8) : Bool := decide (0x80 ≤ b.toNat ∧ b.toNat ≤ 0xBF)

/-- The second byte of a rune of three bytes: no overlong encoding, no surrogate. -/
def isSecondOf3 (b₀ b₁ : UInt8) : Bool :=
  isCont b₁ && (b₀ != 0xE0 || decide (0xA0 ≤ b₁.toNat)) && (b₀ != 0xED || decide (b₁.toNat ≤ 0x9F))

/-- The second byte of a rune of four bytes: no overlong encoding, nothing above
    U+10FFFF. -/
def isSecondOf4 (b₀ b₁ : UInt8) : Bool :=
  isCont b₁ && (b₀ != 0xF0 || decide (0x90 ≤ b₁.toNat)) && (b₀ != 0xF4 || decide (b₁.toNat ≤ 0x8F))

/-- The encoding of a rune above U+007F at the front of a byte string. -/
def multibyte : Bytes → Option Bytes
  | b₀ :: b₁ :: rest =>
    if 0xC2 ≤ b₀.toNat ∧ b₀.toNat ≤ 0xDF then
      if isCont b₁ then some [b₀, b₁] else none
    else
      match rest with
      | b₂ :: rest =>
        if 0xE0 ≤ b₀.toNat ∧ b₀.toNat ≤ 0xEF then
          if isSecondOf3 b₀ b₁ && isCont b₂ then some [b₀, b₁, b₂] else none
        else
          match rest with
          | b₃ :: _ =>
            if 0xF0 ≤ b₀.toNat ∧ b₀.toNat ≤ 0xF4 then
              if isSecondOf4 b₀ b₁ && isCont b₂ && isCont b₃ then some [b₀, b₁, b₂, b₃] else none
            else none
          | [] => none
      | [] => none
  | _ => none

/-- The segments after the first `skip` bytes. -/
def segsFrom : (skip : Nat) → Bytes → List Seg
  | _, [] => []
  | skip + 1, _ :: rest => segsFrom skip rest
  | 0, b :: rest =>
    if b.toNat < 0x80 then .ascii b :: segsFrom 0 rest
    else
      match multibyte (b :: rest) with
      | some bs => .rune bs :: segsFrom (bs.length - 1) rest
      | none => .bad b :: segsFrom 0 rest

/-- The segments of a byte string. -/
def segs (s : Bytes) : List Seg := segsFrom 0 s

/-- U+FFFD, which stands for a byte that is not UTF-8. -/
def replacement : Bytes := [0xEF, 0xBF, 0xBD]

namespace Seg

def bytes : Seg → Bytes
  | ascii b => [b]
  | rune bs => bs
  | bad b => [b]

/-- The bytes of a segment, or U+FFFD. -/
def validBytes : Seg → Bytes
  | ascii b => [b]
  | rune bs => bs
  | bad _ => replacement

/-- A segment that is valid UTF-8. -/
def isValid : Seg → Bool
  | ascii _ | rune _ => true
  | bad _ => false

end Seg

def Seg.isSpace : Seg → Bool
  | ascii b => decide (9 ≤ b.toNat ∧ b.toNat ≤ 13) || b == 32
  | rune bs => bs ∈ [[0xC2, 0x85], [0xC2, 0xA0], [0xE1, 0x9A, 0x80], [0xE2, 0x80, 0x80],
      [0xE2, 0x80, 0x81], [0xE2, 0x80, 0x82], [0xE2, 0x80, 0x83], [0xE2, 0x80, 0x84],
      [0xE2, 0x80, 0x85], [0xE2, 0x80, 0x86], [0xE2, 0x80, 0x87], [0xE2, 0x80, 0x88],
      [0xE2, 0x80, 0x89], [0xE2, 0x80, 0x8A], [0xE2, 0x80, 0xA8], [0xE2, 0x80, 0xA9],
      [0xE2, 0x80, 0xAF], [0xE2, 0x81, 0x9F], [0xE3, 0x80, 0x80]]
  | bad _ => false

/-- `strings.TrimSpace` and `bytes.TrimSpace`. -/
def trimSpace (s : Bytes) : Bytes :=
  ((((segs s).dropWhile Seg.isSpace).reverse.dropWhile Seg.isSpace).reverse).flatMap Seg.bytes

/-- `utf8.Valid`. -/
def isUtf8 (s : Bytes) : Bool := (segs s).all Seg.isValid

/-- The string with U+FFFD for every byte that is not UTF-8. -/
def toValid (s : Bytes) : Bytes := (segs s).flatMap Seg.validBytes

/-! ## Runes -/

variable {s bs : Bytes}

/-- What `multibyte` finds is at the front, has at least two bytes, and is found there
    whatever follows. -/
theorem multibyte_eq_some (h : multibyte s = some bs) :
    ∃ b₀ t r, bs = b₀ :: t ∧ s = bs ++ r ∧ 0xC2 ≤ b₀.toNat ∧ t ≠ [] ∧
      (∀ x ∈ t, isCont x = true) ∧ ∀ r', multibyte (bs ++ r') = some bs := by
  unfold multibyte at h
  split at h
  · rename_i b₀ b₁ rest
    split at h
    · rename_i h₀
      obtain ⟨h₁, ⟨⟩⟩ := Option.ite_none_right_eq_some.mp h
      simp [multibyte, h₀, h₁]
    · rename_i hnot2
      split at h
      · rename_i b₂ rest
        split at h
        · rename_i h₀
          obtain ⟨h₁, ⟨⟩⟩ := Option.ite_none_right_eq_some.mp h
          have hcont : isCont b₁ = true ∧ isCont b₂ = true := by
            simp only [isSecondOf3, Bool.and_eq_true] at h₁
            exact ⟨h₁.1.1.1, h₁.2⟩
          refine ⟨b₀, [b₁, b₂], rest, rfl, rfl, by omega, by simp, by simpa using hcont,
            fun r' => ?_⟩
          simp only [multibyte, cons_append, List.nil_append]
          rw [if_neg hnot2, if_pos h₀, if_pos h₁]
        · rename_i hnot3
          split at h
          · rename_i b₃ rest
            split at h
            · rename_i h₀
              split at h
              · rename_i h₁
                cases h
                have hcont : isCont b₁ = true ∧ isCont b₂ = true ∧ isCont b₃ = true := by
                  simp only [isSecondOf4, Bool.and_eq_true] at h₁
                  exact ⟨h₁.1.1.1.1, h₁.1.2, h₁.2⟩
                refine ⟨b₀, [b₁, b₂, b₃], rest, rfl, rfl, by omega, by simp, by simpa using hcont,
                  fun r' => ?_⟩
                simp only [multibyte, cons_append, List.nil_append]
                rw [if_neg hnot2, if_neg hnot3, if_pos h₀, if_pos h₁]
              · cases h
            · cases h
          · cases h
      · cases h
  · cases h

theorem isCont_iff (b : UInt8) : isCont b = true ↔ 0x80 ≤ b.toNat ∧ b.toNat ≤ 0xBF := by
  simp [isCont]

variable {b₀ b₁ : UInt8}

theorem multibyte_two (h₀ : 0xC2 ≤ b₀.toNat ∧ b₀.toNat ≤ 0xDF) (h₁ : isCont b₁ = true) :
    multibyte [b₀, b₁] = some [b₀, b₁] := by
  simp [multibyte, h₀, h₁]

theorem multibyte_three {b₂ : UInt8} (h₀ : 0xE0 ≤ b₀.toNat ∧ b₀.toNat ≤ 0xEF)
    (hlow : b₀.toNat = 0xE0 → 0xA0 ≤ b₁.toNat) (hhigh : b₀.toNat = 0xED → b₁.toNat ≤ 0x9F)
    (h₁ : isCont b₁ = true) (h₂ : isCont b₂ = true) :
    multibyte [b₀, b₁, b₂] = some [b₀, b₁, b₂] := by
  have hsecond : isSecondOf3 b₀ b₁ = true := by
    simp only [isSecondOf3, h₁, Bool.true_and, Bool.and_eq_true, Bool.or_eq_true, bne_iff_ne,
      decide_eq_true_eq]
    exact ⟨(eq_or_ne b₀ 0xE0).symm.imp_right fun h => hlow (by rw [h]; rfl),
      (eq_or_ne b₀ 0xED).symm.imp_right fun h => hhigh (by rw [h]; rfl)⟩
  have hnot2 : ¬ (0xC2 ≤ b₀.toNat ∧ b₀.toNat ≤ 0xDF) := by omega
  simp only [multibyte]
  rw [if_neg hnot2, if_pos h₀, hsecond, h₂]
  rfl

theorem multibyte_four {b₂ b₃ : UInt8} (h₀ : 0xF0 ≤ b₀.toNat ∧ b₀.toNat ≤ 0xF4)
    (hlow : b₀.toNat = 0xF0 → 0x90 ≤ b₁.toNat) (hhigh : b₀.toNat = 0xF4 → b₁.toNat ≤ 0x8F)
    (h₁ : isCont b₁ = true) (h₂ : isCont b₂ = true) (h₃ : isCont b₃ = true) :
    multibyte [b₀, b₁, b₂, b₃] = some [b₀, b₁, b₂, b₃] := by
  have hsecond : isSecondOf4 b₀ b₁ = true := by
    simp only [isSecondOf4, h₁, Bool.true_and, Bool.and_eq_true, Bool.or_eq_true, bne_iff_ne,
      decide_eq_true_eq]
    exact ⟨(eq_or_ne b₀ 0xF0).symm.imp_right fun h => hlow (by rw [h]; rfl),
      (eq_or_ne b₀ 0xF4).symm.imp_right fun h => hhigh (by rw [h]; rfl)⟩
  have hnot2 : ¬ (0xC2 ≤ b₀.toNat ∧ b₀.toNat ≤ 0xDF) := by omega
  have hnot3 : ¬ (0xE0 ≤ b₀.toNat ∧ b₀.toNat ≤ 0xEF) := by omega
  simp only [multibyte]
  rw [if_neg hnot2, if_neg hnot3, if_pos h₀, hsecond, h₂, h₃]
  rfl

theorem segsFrom_eq (skip : Nat) (s : Bytes) : segsFrom skip s = segs (s.drop skip) := by
  induction s generalizing skip with
  | nil => cases skip <;> rfl
  | cons b rest ih =>
    cases skip with
    | zero => rfl
    | succ skip => exact ih skip

@[simp] theorem segs_nil : segs [] = [] := rfl

variable {b : UInt8}

theorem segs_ascii (h : b.toNat < 0x80) (rest : Bytes) :
    segs (b :: rest) = .ascii b :: segs rest := by
  simp only [segs, segsFrom, if_pos h]

theorem segs_rune (h : multibyte bs = some bs) (rest : Bytes) :
    segs (bs ++ rest) = .rune bs :: segs rest := by
  obtain ⟨b₀, t, r, rfl, _, hlead, _, _, hfront⟩ := multibyte_eq_some h
  have hge : ¬ b₀.toNat < 0x80 := by omega
  have hm := hfront rest
  rw [cons_append] at hm ⊢
  simp only [segs, segsFrom, if_neg hge, hm]
  rw [segsFrom_eq]
  simp [segs]

theorem segs_bad {rest : Bytes} (h : ¬ b.toNat < 0x80) (hm : multibyte (b :: rest) = none) :
    segs (b :: rest) = .bad b :: segs rest := by
  simp only [segs, segsFrom, if_neg h, hm]

theorem seg_cases (s : Bytes) :
    s = [] ∨ (∃ b rest, s = b :: rest ∧ b.toNat < 0x80) ∨
      (∃ bs rest, s = bs ++ rest ∧ multibyte bs = some bs) ∨
      ∃ b rest, s = b :: rest ∧ ¬ b.toNat < 0x80 ∧ multibyte (b :: rest) = none := by
  cases s with
  | nil => exact .inl rfl
  | cons b rest =>
    by_cases hb : b.toNat < 0x80
    · exact .inr (.inl ⟨b, rest, rfl, hb⟩)
    · cases hm : multibyte (b :: rest) with
      | none => exact .inr (.inr (.inr ⟨b, rest, rfl, hb, hm⟩))
      | some bs =>
        obtain ⟨_, _, r, _, hs, _, _, _, hfront⟩ := multibyte_eq_some hm
        exact .inr (.inr (.inl ⟨bs, r, hs, by simpa using hfront []⟩))

theorem length_pos_of_multibyte (h : multibyte bs = some bs) : 0 < bs.length := by
  obtain ⟨b₀, t, _, rfl, _⟩ := multibyte_eq_some h
  simp

/-- Every byte of a rune above U+007F is above 0x7F. -/
theorem not_ascii_of_multibyte (h : multibyte bs = some bs) (hb : b ∈ bs) : ¬ b.toNat < 0x80 := by
  obtain ⟨b₀, t, _, rfl, _, hlead, _, hcont, _⟩ := multibyte_eq_some h
  cases hb with
  | head => omega
  | tail _ hb =>
    have := hcont b hb
    simp only [isCont, decide_eq_true_eq] at this
    omega

/-- Induction over the segments of a byte string. -/
theorem segInduction {P : Bytes → Prop} (nil : P [])
    (ascii : ∀ b rest, b.toNat < 0x80 → P rest → P (b :: rest))
    (rune : ∀ bs rest, multibyte bs = some bs → P rest → P (bs ++ rest))
    (bad : ∀ b rest, ¬ b.toNat < 0x80 → multibyte (b :: rest) = none → P rest → P (b :: rest))
    (s : Bytes) : P s := by
  -- on the length: a rune takes several bytes at once
  induction hn : s.length using Nat.strongRecOn generalizing s with
  | ind n ih =>
    obtain rfl | ⟨b, rest, rfl, hb⟩ | ⟨bs, rest, rfl, hbs⟩ | ⟨b, rest, rfl, hb, hm⟩ := seg_cases s
    · exact nil
    · exact ascii b rest hb (ih rest.length (by simp at hn; omega) rest rfl)
    · have hpos := length_pos_of_multibyte hbs
      exact rune bs rest hbs (ih rest.length (by simp at hn; omega) rest rfl)
    · exact bad b rest hb hm (ih rest.length (by simp at hn; omega) rest rfl)

/-- A rune is recognised by its first byte and the continuation bytes that follow. -/
theorem multibyte_takeWhile (b : UInt8) (s : Bytes) :
    multibyte (b :: s.takeWhile isCont) = multibyte (b :: s) := by
  rcases s with _ | ⟨b₁, s⟩
  · rfl
  by_cases h₁ : isCont b₁ = true
  · rw [List.takeWhile_cons_of_pos h₁]
    rcases s with _ | ⟨b₂, s⟩
    · rfl
    by_cases h₂ : isCont b₂ = true
    · rw [List.takeWhile_cons_of_pos h₂]
      rcases s with _ | ⟨b₃, s⟩
      · rfl
      by_cases h₃ : isCont b₃ = true
      · rw [List.takeWhile_cons_of_pos h₃]
        rfl
      · simp [multibyte, h₃]
    · rw [List.takeWhile_cons_of_neg h₂]
      rcases s with _ | ⟨b₃, s⟩ <;> simp [multibyte, h₂]
  · rw [List.takeWhile_cons_of_neg h₁]
    rcases s with _ | ⟨b₂, _ | ⟨b₃, s⟩⟩ <;> simp [multibyte, isSecondOf3, isSecondOf4, h₁]

/-! ## Valid strings -/

/-- The segments are the string. -/
theorem flatMap_segs (s : Bytes) : (segs s).flatMap Seg.bytes = s := by
  induction s using segInduction with
  | nil => rfl
  | ascii b rest hb ih => rw [segs_ascii hb, flatMap_cons, ih]; rfl
  | rune bs rest hbs ih => rw [segs_rune hbs, flatMap_cons, ih]; rfl
  | bad b rest hb hm ih => rw [segs_bad hb hm, flatMap_cons, ih]; rfl

variable {a : Bytes}

theorem segs_append_ascii (h : ∀ b ∈ a, b.toNat < 0x80) (rest : Bytes) :
    segs (a ++ rest) = a.map Seg.ascii ++ segs rest := by
  induction a with
  | nil => rfl
  | cons b a ih =>
    rw [cons_append, segs_ascii (h b (by simp)), ih fun x hx => h x (by simp [hx])]
    rfl

theorem length_toValid (s : Bytes) :
    s.length + 2 * ((segs s).filter fun x => !x.isValid).length = (toValid s).length := by
  have hlen : ∀ l : List Seg, (l.flatMap Seg.bytes).length +
      2 * (l.filter fun x => !x.isValid).length = (l.flatMap Seg.validBytes).length := by
    intro l
    induction l with
    | nil => rfl
    | cons x l ih =>
      have hx : x.validBytes.length = x.bytes.length + if x.isValid then 0 else 2 := by
        cases x <;> rfl
      simp only [flatMap_cons, List.length_append, List.filter_cons, hx]
      cases x.isValid <;> simp only [Bool.not_true, Bool.not_false, if_true, Bool.false_eq_true,
        if_false, List.length_cons] <;> omega
  simpa only [toValid, flatMap_segs] using hlen (segs s)

theorem toValid_of_isUtf8 (h : isUtf8 s = true) : toValid s = s := by
  have hbytes : ∀ x ∈ segs s, x.validBytes = x.bytes := by
    intro x hx
    have hvalid := List.all_eq_true.mp h x hx
    cases x with
    | ascii | rune => rfl
    | bad b => cases hvalid
  calc toValid s = (segs s).flatMap Seg.bytes := List.flatMap_congr hbytes
    _ = s := flatMap_segs s

/-- Replacing invalid bytes makes a string longer, so it changes nothing only if there are
    none. -/
theorem toValid_eq_self_iff (s : Bytes) : toValid s = s ↔ isUtf8 s = true := by
  refine ⟨fun h => ?_, toValid_of_isUtf8⟩
  have hlen := length_toValid s
  rw [h] at hlen
  have hnil : (segs s).filter (fun x => !x.isValid) = [] := by
    rw [← List.length_eq_zero_iff]
    omega
  rw [List.filter_eq_nil_iff] at hnil
  refine List.all_eq_true.mpr fun x hx => ?_
  simpa using hnil x hx

/-- What follows a valid string is cut on its own. -/
theorem segs_append (ha : isUtf8 a = true) (b : Bytes) : segs (a ++ b) = segs a ++ segs b := by
  induction a using segInduction with
  | nil => rfl
  | ascii x rest hx ih =>
    rw [isUtf8, segs_ascii hx, all_cons, Bool.and_eq_true] at ha
    rw [cons_append, segs_ascii hx, segs_ascii hx, ih ha.2, cons_append]
  | rune bs rest hbs ih =>
    rw [isUtf8, segs_rune hbs, all_cons, Bool.and_eq_true] at ha
    rw [List.append_assoc, segs_rune hbs, segs_rune hbs, ih ha.2, cons_append]
  | bad x rest hx hm ih =>
    rw [isUtf8, segs_bad hx hm] at ha
    cases ha

theorem isUtf8_append {b : Bytes} (ha : isUtf8 a = true) (hb : isUtf8 b = true) :
    isUtf8 (a ++ b) = true := by
  have hall : (segs a).all Seg.isValid = true := ha
  have hall' : (segs b).all Seg.isValid = true := hb
  rw [isUtf8, segs_append ha, List.all_append, hall, hall']
  rfl

theorem isUtf8_ascii (h : b.toNat < 0x80) : isUtf8 [b] = true := by
  rw [isUtf8, segs_ascii h]
  rfl

theorem isUtf8_rune (h : multibyte bs = some bs) : isUtf8 bs = true := by
  have hsegs := segs_rune h []
  rw [List.append_nil] at hsegs
  rw [isUtf8, hsegs]
  rfl

theorem mem_segs_cases {x : Seg} (hx : x ∈ segs s) :
    (∃ b : UInt8, b.toNat < 0x80 ∧ x = .ascii b) ∨ (∃ bs, multibyte bs = some bs ∧ x = .rune bs) ∨
      ∃ b, x = .bad b := by
  induction s using segInduction with
  | nil => cases hx
  | ascii b rest hb ih =>
    rw [segs_ascii hb, mem_cons] at hx
    exact hx.elim (fun h => .inl ⟨b, hb, h⟩) ih
  | rune bs rest hbs ih =>
    rw [segs_rune hbs, mem_cons] at hx
    exact hx.elim (fun h => .inr (.inl ⟨bs, hbs, h⟩)) ih
  | bad b rest hb hm ih =>
    rw [segs_bad hb hm, mem_cons] at hx
    exact hx.elim (fun h => .inr (.inr ⟨b, h⟩)) ih

theorem isUtf8_of_mem_segs (h : isUtf8 s = true) {x : Seg} (hx : x ∈ segs s) :
    isUtf8 x.bytes = true := by
  obtain ⟨b, hb, rfl⟩ | ⟨bs, hbs, rfl⟩ | ⟨b, rfl⟩ := mem_segs_cases hx
  · exact isUtf8_ascii hb
  · exact isUtf8_rune hbs
  · exact nomatch List.all_eq_true.mp h _ hx

/-! ## Cutting at an ASCII byte -/

theorem isUtf8_toValid (s : Bytes) : isUtf8 (toValid s) = true := by
  induction s using segInduction with
  | nil => rfl
  | ascii b rest hb ih =>
    rw [toValid, segs_ascii hb, flatMap_cons]
    exact isUtf8_append (isUtf8_ascii hb) ih
  | rune bs rest hbs ih =>
    rw [toValid, segs_rune hbs, flatMap_cons]
    exact isUtf8_append (isUtf8_rune hbs) ih
  | bad b rest hb hm ih =>
    rw [toValid, segs_bad hb hm, flatMap_cons]
    exact isUtf8_append (show isUtf8 replacement = true by decide) ih

/-- An ASCII byte ends what stands before it. -/
theorem segs_append_cons (hb : b.toNat < 0x80) (a rest : Bytes) :
    segs (a ++ b :: rest) = segs a ++ segs (b :: rest) := by
  have hcont : isCont b = false := by
    simp only [isCont, decide_eq_false_iff_not]
    omega
  induction a using segInduction with
  | nil => rfl
  | ascii x a hx ih => rw [cons_append, segs_ascii hx, segs_ascii hx, ih, cons_append]
  | rune bs a hbs ih =>
    rw [List.append_assoc, segs_rune hbs, segs_rune hbs, ih, cons_append]
  | bad x a hx hm ih =>
    have hm' : multibyte (x :: (a ++ b :: rest)) = none := by
      rw [← hm, ← multibyte_takeWhile, ← multibyte_takeWhile x a, List.takeWhile_append]
      split
      · rename_i hlen
        rw [List.takeWhile_cons_of_neg (by simp [hcont]), List.append_nil,
          (List.takeWhile_sublist isCont).eq_of_length hlen]
      · rfl
    rw [cons_append, segs_bad hx hm', segs_bad hx hm, ih, cons_append]

/-- A string is valid iff what stands before and after an ASCII byte is. -/
theorem isUtf8_append_cons (hb : b.toNat < 0x80) (a rest : Bytes) :
    isUtf8 (a ++ b :: rest) = (isUtf8 a && isUtf8 rest) := by
  rw [isUtf8, segs_append_cons hb, segs_ascii hb, List.all_append, all_cons]
  rfl

theorem isUtf8_cons (hb : b.toNat < 0x80) (rest : Bytes) :
    isUtf8 (b :: rest) = isUtf8 rest := isUtf8_append_cons hb [] rest

/-- A text between two ASCII bytes that are no spaces is trimmed to itself. -/
theorem trimSpace_of_ends {c : UInt8} (hb : b.toNat < 0x80) (hc : c.toNat < 0x80)
    (hbs : Seg.isSpace (.ascii b) = false) (hcs : Seg.isSpace (.ascii c) = false) :
    trimSpace (b :: s ++ [c]) = b :: s ++ [c] := by
  have hsegs : segs (b :: s ++ [c]) = .ascii b :: (segs s ++ [.ascii c]) := by
    rw [cons_append, segs_ascii hb, segs_append_cons hc, segs_ascii hc, segs_nil]
  have hflat := flatMap_segs (b :: s ++ [c])
  rw [hsegs] at hflat
  rw [trimSpace, hsegs, List.dropWhile_cons_of_neg (by simp [hbs]), ← cons_append,
    List.reverse_append, List.reverse_singleton, List.singleton_append,
    List.dropWhile_cons_of_neg (by simp [hcs]), ← List.singleton_append, ← List.reverse_singleton,
    ← List.reverse_append, List.reverse_reverse]
  exact hflat

end Bytes
