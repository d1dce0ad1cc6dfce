import MockAgents.ForStd.JsonString

/-!
# Cutting UTF-8

A byte string that is cut in two at some byte is read in the same runes as before if the
cut falls between two of them. If it falls inside a rune, none of the rune's bytes is part
of a valid encoding any more, so that each becomes a U+FFFD of its own.
-/

namespace Bytes

open List (cons_append drop_succ_cons flatMap_cons length_append take_succ_cons)

/-! ## The bytes of a text -/

theorem utf8EncodeChar_eq (c : Char) : String.utf8EncodeChar c = Json.encodeRune c.val.toNat := by
  have hvalid : c.val.toNat < 0xD800 ∨ 0xDFFF < c.val.toNat ∧ c.val.toNat < 0x110000 := c.valid
  unfold String.utf8EncodeChar Json.encodeRune
  generalize c.val.toNat = v at hvalid
  by_cases h₁ : v ≤ 0x7F
  · rw [if_pos h₁, if_pos (by omega)]
  rw [if_neg h₁, if_neg (show ¬ v < 0x80 by omega)]
  by_cases h₂ : v ≤ 0x7FF
  · rw [if_pos h₂, if_pos (by omega), Nat.mod_eq_of_lt (show v / 64 < 32 by omega),
      Nat.add_comm (v / 64), Nat.add_comm (v % 64)]
  rw [if_neg h₂, if_neg (show ¬ v < 0x800 by omega),
    if_neg (show ¬ (0xD800 ≤ v ∧ v < 0xE000 ∨ 0x10FFFF < v) by omega)]
  by_cases h₃ : v ≤ 0xFFFF
  · rw [if_pos h₃, if_pos (by omega), Nat.mod_eq_of_lt (show v / 4096 < 16 by omega),
      Nat.add_comm (v / 4096), Nat.add_comm (v / 64 % 64), Nat.add_comm (v % 64)]
  rw [if_neg h₃, if_neg (by omega), Nat.mod_eq_of_lt (show v / 262144 < 8 by omega),
    Nat.add_comm (v / 262144), Nat.add_comm (v / 4096 % 64), Nat.add_comm (v / 64 % 64),
    Nat.add_comm (v % 64)]

/-- The bytes of a text are valid. -/
theorem isUtf8_ofString (s : String) : isUtf8 (ofString s) = true := by
  rw [ofString]
  induction s.toList with
  | nil => rfl
  | cons c l ih =>
    rw [flatMap_cons, utf8EncodeChar_eq]
    exact isUtf8_append (Json.isUtf8_encodeRune _) ih

@[simp] theorem toValid_ofString (s : String) : toValid (ofString s) = ofString s :=
  toValid_of_isUtf8 (isUtf8_ofString s)

theorem ofString_injective : Function.Injective ofString := by
  intro s t h
  have hbytes : s.toList.utf8Encode = t.toList.utf8Encode := congrArg List.toByteArray h
  rw [String.utf8Encode_toList, String.utf8Encode_toList] at hbytes
  exact String.toByteArray_inj.mp hbytes

@[simp] theorem ofString_inj {s t : String} : ofString s = ofString t ↔ s = t :=
  ofString_injective.eq_iff

/-! ## Cuts -/

/-- A cut after `n` bytes falls inside a segment. -/
def cutsSeg : (n : Nat) → List Seg → Bool
  | _, [] => false
  | n, x :: l => if n < x.bytes.length then decide (0 < n) else cutsSeg (n - x.bytes.length) l

/-- A cut after `n` bytes falls inside a rune. -/
def cutsRune (s : Bytes) (n : Nat) : Bool := cutsSeg n (segs s)

@[simp] theorem cutsSeg_zero (l : List Seg) : cutsSeg 0 l = false := by
  induction l with
  | nil => rfl
  | cons x l ih =>
    rw [cutsSeg]
    split
    · rfl
    · rw [Nat.zero_sub]
      exact ih

theorem cutsSeg_append (l l' : List Seg) (n : Nat) :
    cutsSeg ((l.flatMap Seg.bytes).length + n) (l ++ l') = cutsSeg n l' := by
  induction l with
  | nil =>
    rw [List.flatMap_nil, List.length_nil, Nat.zero_add]
    rfl
  | cons x l ih =>
    rw [flatMap_cons, length_append, cons_append, cutsSeg, if_neg (by omega), ← ih]
    congr 1
    omega

variable {s : Bytes} {n : Nat}

theorem cutsRune_of_length_le (h : s.length ≤ n) : cutsRune s n = false := by
  obtain ⟨m, rfl⟩ := Nat.exists_eq_add_of_le h
  have happend := cutsSeg_append (segs s) [] m
  rw [flatMap_segs, List.append_nil] at happend
  exact happend

variable {b : UInt8}

theorem cutsRune_ascii (h : b.toNat < 0x80) (rest : Bytes) (n : Nat) :
    cutsRune (b :: rest) (n + 1) = cutsRune rest n := by
  rw [cutsRune, segs_ascii h, cutsSeg]
  rfl

variable {rest : Bytes}

theorem cutsRune_bad (h : ¬ b.toNat < 0x80) (hm : multibyte (b :: rest) = none) (n : Nat) :
    cutsRune (b :: rest) (n + 1) = cutsRune rest n := by
  rw [cutsRune, segs_bad h hm, cutsSeg]
  rfl

variable {bs : Bytes}

theorem cutsRune_rune (h : multibyte bs = some bs) (rest : Bytes) (n : Nat) :
    cutsRune (bs ++ rest) n =
      if n < bs.length then decide (0 < n) else cutsRune rest (n - bs.length) := by
  rw [cutsRune, segs_rune h]
  rfl

/-- A byte that starts no rune starts none when less follows it. -/
theorem multibyte_take_eq_none (h : multibyte (b :: rest) = none) (n : Nat) :
    multibyte (b :: rest.take n) = none := by
  cases hm : multibyte (b :: rest.take n) with
  | none => rfl
  | some bs =>
    obtain ⟨_, _, r, _, hs, _, _, _, hfront⟩ := multibyte_eq_some hm
    have hwhole : b :: rest = bs ++ (r ++ rest.drop n) := by
      rw [← List.append_assoc, ← hs, cons_append, List.take_append_drop]
    rw [hwhole, hfront] at h
    cases h

/-- A cut between two segments leaves the segments alone. -/
theorem segs_take_drop (h : cutsRune s n = false) :
    segs (s.take n) ++ segs (s.drop n) = segs s := by
  induction s using segInduction generalizing n with
  | nil => simp
  | ascii b rest hb ih =>
    cases n with
    | zero => simp
    | succ n =>
      rw [cutsRune_ascii hb] at h
      rw [take_succ_cons, drop_succ_cons, segs_ascii hb, segs_ascii hb, cons_append,
        ih h]
  | rune bs rest hbs ih =>
    rw [cutsRune_rune hbs] at h
    split at h
    · have hzero : n = 0 := by simpa using h
      simp [hzero]
    · rw [List.take_append, List.drop_append, List.take_of_length_le (by omega),
        List.drop_of_length_le (by omega), List.nil_append, segs_rune hbs, segs_rune hbs,
        cons_append, ih h]
  | bad b rest hb hm ih =>
    cases n with
    | zero => simp
    | succ n =>
      rw [cutsRune_bad hb hm] at h
      rw [take_succ_cons, drop_succ_cons, segs_bad hb hm,
        segs_bad hb (multibyte_take_eq_none hm n), cons_append, ih h]

theorem toValid_take_drop (h : cutsRune s n = false) :
    toValid (s.take n) ++ toValid (s.drop n) = toValid s := by
  rw [toValid, toValid, toValid, ← segs_take_drop h, List.flatMap_append]

/-- What is cut off is cut as it was before. -/
theorem cutsRune_drop (h : cutsRune s n = false) (m : Nat) :
    cutsRune (s.drop n) m = cutsRune s (n + m) := by
  by_cases hn : n ≤ s.length
  · have happend := cutsSeg_append (segs (s.take n)) (segs (s.drop n)) m
    rw [segs_take_drop h, flatMap_segs, List.length_take, Nat.min_eq_left hn] at happend
    exact happend.symm
  · rw [cutsRune_of_length_le (show s.length ≤ n + m by omega), List.drop_of_length_le (by omega)]
    rfl

/-! ## Cuts inside a rune -/

/-- A continuation byte starts no rune. -/
theorem multibyte_isCont (h : isCont b = true) (rest : Bytes) : multibyte (b :: rest) = none := by
  cases hm : multibyte (b :: rest) with
  | none => rfl
  | some bs =>
    obtain ⟨b₀, t, r, rfl, hs, hlead, _⟩ := multibyte_eq_some hm
    obtain rfl : b = b₀ := (List.cons.inj hs).1
    have hcont := (isCont_iff b).mp h
    omega

theorem toValid_isCont (h : isCont b = true) (rest : Bytes) :
    toValid (b :: rest) = replacement ++ toValid rest := by
  have hge : ¬ b.toNat < 0x80 := by
    have hcont := (isCont_iff b).mp h
    omega
  rw [toValid, segs_bad hge (multibyte_isCont h rest)]
  rfl

/-- Continuation bytes without the byte that they continue are all replaced. -/
theorem length_toValid_conts {cs : Bytes} (h : ∀ b ∈ cs, isCont b = true) (rest : Bytes) :
    (toValid (cs ++ rest)).length = 3 * cs.length + (toValid rest).length := by
  induction cs with
  | nil => simp
  | cons b cs ih =>
    rw [cons_append, toValid_isCont (h b (by simp)), length_append,
      ih fun x hx => h x (by simp [hx])]
    show 3 + _ = 3 * (cs.length + 1) + _
    omega

theorem toValid_rune (h : multibyte bs = some bs) (rest : Bytes) :
    toValid (bs ++ rest) = bs ++ toValid rest := by
  rw [toValid, segs_rune h]
  rfl

/-- After a cut inside a rune, replacing invalid bytes makes the two parts longer than the
    whole. -/
theorem length_toValid_lt (h : cutsRune s n = true) :
    (toValid s).length < (toValid (s.take n)).length + (toValid (s.drop n)).length := by
  induction s using segInduction generalizing n with
  | nil => cases h
  | ascii b rest hb ih =>
    cases n with
    | zero => exact nomatch (cutsSeg_zero _).symm.trans h
    | succ n =>
      rw [cutsRune_ascii hb] at h
      have hlt := ih h
      simp only [toValid, take_succ_cons, drop_succ_cons, segs_ascii hb,
        flatMap_cons, length_append] at hlt ⊢
      omega
  | rune bs rest hbs ih =>
    rw [cutsRune_rune hbs] at h
    split at h
    · -- the rest of the rune is continuation bytes
      rename_i hlen
      have hpos : 0 < n := by simpa using h
      obtain ⟨b₀, t, _, rfl, _, _, _, hcont, _⟩ := multibyte_eq_some hbs
      obtain ⟨n, rfl⟩ : ∃ m, n = m + 1 := ⟨n - 1, by omega⟩
      have hconts : ∀ b ∈ t.drop n, isCont b = true := fun b hb => hcont b (List.mem_of_mem_drop hb)
      have htake := length_toValid ((b₀ :: t).take (n + 1))
      rw [List.length_cons] at hlen
      rw [toValid_rune hbs, List.take_append_of_le_length (by simp; omega),
        List.drop_append_of_le_length (by simp; omega), drop_succ_cons,
        length_toValid_conts hconts, length_append]
      rw [List.length_take, List.length_cons] at htake
      rw [List.length_drop, List.length_cons]
      omega
    · have hlt := ih h
      rw [toValid_rune hbs, List.take_append, List.drop_append,
        List.take_of_length_le (by omega), List.drop_of_length_le (by omega), List.nil_append,
        toValid_rune hbs, length_append, length_append]
      omega
  | bad b rest hb hm ih =>
    cases n with
    | zero => exact nomatch (cutsSeg_zero _).symm.trans h
    | succ n =>
      rw [cutsRune_bad hb hm] at h
      have hlt := ih h
      simp only [toValid, take_succ_cons, drop_succ_cons, segs_bad hb hm,
        segs_bad hb (multibyte_take_eq_none hm n), flatMap_cons, length_append] at hlt ⊢
      omega

theorem length_toValid_le (s : Bytes) (n : Nat) :
    (toValid s).length ≤ (toValid (s.take n)).length + (toValid (s.drop n)).length := by
  cases hcut : cutsRune s n with
  | true => exact Nat.le_of_lt (length_toValid_lt hcut)
  | false =>
    refine Nat.le_of_eq ?_
    rw [← toValid_take_drop hcut, length_append]

end Bytes
