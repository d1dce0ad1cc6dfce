import MockAgents.Recording.Redact

/-!
# Masked secrets

What `SanitizeBody` leaves behind: after the three passes every occurrence of a secret's prefix
is followed by the mask, so that a second call finds nothing to do. A later pass cannot undo an
earlier one, since no prefix has a star in it and none ends where another does.
-/

/-- `cut` finds the first occurrence. -/
theorem Bytes.cut_append (x sep y : Bytes) :
    ∃ before after, cut sep (x ++ sep ++ y) = some (before, after) ∧
      before.length ≤ x.length := by
  induction x with
  | nil =>
    refine ⟨[], y, ?_, Nat.le_refl _⟩
    cases sep with
    | nil => cases y <;> rfl
    | cons b sep => simp [cut]
  | cons b x ih =>
    obtain ⟨before, after, hcut, hle⟩ := ih
    simp only [List.cons_append, cut, hcut]
    split
    · exact ⟨_, _, rfl, Nat.zero_le _⟩
    · exact ⟨_, _, rfl, Nat.succ_le_succ hle⟩

namespace MockAgents

/-- Every occurrence of a prefix is masked. -/
def AllMasked (p s : Bytes) : Prop :=
  ∀ before rest, s = before ++ p ++ rest → isMasked rest = true

/-- The prefixes of `SanitizeBody`. -/
def secretPrefixes : List Bytes :=
  [Bytes.ofString "sk-", Bytes.ofString "key-", Bytes.ofString "Bearer "]

/-- What the passes use of a prefix: it has no star in it and does not start with a delimiter. -/
structure IsSecretPrefix (p : Bytes) : Prop where
  ne_nil : p ≠ []
  star : 42 ∉ p
  head : p.head?.any isDelim = false

variable {p q s t : Bytes}

theorem isMasked_iff :
    isMasked s = true ↔ ∃ t, s = stars ++ t ∧ ∀ b ∈ t.head?, isDelim b = true := by
  fun_cases isMasked s with
  | case1 => simp [stars]
  | case2 b rest => simp [stars]
  | case3 s hend hmore =>
    simp only [Bool.false_eq_true, false_iff, not_exists, not_and]
    intro t hs
    cases t with
    | nil => exact absurd hs hend
    | cons b t => exact absurd hs (hmore b t)

theorem AllMasked.suffix (h : AllMasked p s) (hsuffix : t <:+ s) : AllMasked p t := by
  intro x y hxy
  obtain ⟨u, rfl⟩ := hsuffix
  exact h (u ++ x) y (by simp [hxy])

/-- No mask starts at a prefix or runs into one. -/
theorem IsSecretPrefix.isMasked_append (hq : IsSecretPrefix q) {c u : Bytes}
    (h : isMasked (c ++ (q ++ u)) = true) (v : Bytes) : isMasked (c ++ (q ++ v)) = true := by
  obtain ⟨b, q, rfl⟩ := List.exists_cons_of_ne_nil hq.ne_nil
  have hdelim : isDelim b = false := hq.head
  have hstar : b ≠ 42 := fun h => hq.star (by simp [h])
  obtain ⟨t, hs, ht⟩ := isMasked_iff.mp h
  rcases c with _ | ⟨_, _ | ⟨_, _ | ⟨_, _ | ⟨d, c⟩⟩⟩⟩ <;> simp_all [stars]
  · simp [← hs.2.2.2, hdelim] at ht
  · exact ht d (by simp [← hs.2.2.2])

/-- An occurrence in a text with a mask lies behind the mask or before it. -/
theorem IsSecretPrefix.occurrence_cases (hp : IsSecretPrefix p) {x y u : Bytes}
    (h : u ++ (stars ++ t) = x ++ p ++ y) :
    (∃ x', t = x' ++ p ++ y) ∨ ∃ c, u = x ++ p ++ c ∧ y = c ++ (stars ++ t) := by
  rcases List.append_eq_append_iff.mp h with ⟨c, hc, hy⟩ | ⟨c, hc, hy⟩
  · rcases List.append_eq_append_iff.mp hc with ⟨a, rfl, rfl⟩ | ⟨a, rfl, rfl⟩
    · cases c with
      | nil => exact .inr ⟨[], by simp, hy.symm⟩
      | cons d c =>
        have hd : d = 42 := (List.cons.inj hy).1.symm
        exact absurd (by simp [hd]) hp.star
    · -- the stars stand before the occurrence
      obtain ⟨b, p, rfl⟩ := List.exists_cons_of_ne_nil hp.ne_nil
      have hstar : 42 ≠ b := fun h => hp.star (by simp [h])
      rcases a with _ | ⟨_, _ | ⟨_, _ | ⟨_, a⟩⟩⟩ <;> simp_all [stars]
  · exact .inr ⟨c, hc, hy⟩

theorem head?_sanitizeFor (hq : q ≠ []) (fuel : Nat) (s : Bytes) :
    (sanitizeFor q fuel s).head? = s.head? := by
  cases fuel with
  | zero => rfl
  | succ fuel =>
    rw [sanitizeFor]
    split
    · rfl
    · rename_i before rest hcut
      obtain ⟨b, q, rfl⟩ := List.exists_cons_of_ne_nil hq
      rw [Bytes.eq_of_cut hcut]
      cases before <;> rfl

/-- Where the loop goes on: at a delimiter or at the end. -/
theorem after_spec (rest : Bytes) :
    let after := if isMasked rest then rest.drop 3 else rest.dropWhile fun b => !isDelim b
    after <:+ rest ∧ ∀ b ∈ after.head?, isDelim b = true := by
  intro after
  simp only [after]
  split
  · rename_i hmasked
    obtain ⟨t, rfl, ht⟩ := isMasked_iff.mp hmasked
    exact ⟨List.drop_suffix 3 _, ht⟩
  · refine ⟨List.dropWhile_suffix _, fun b hb => ?_⟩
    have hhead := List.head?_dropWhile_not (fun b => !isDelim b) rest
    rw [Option.mem_def.mp hb] at hhead
    simpa using hhead

/-- A pass masks its own prefix, and leaves one masked that ends elsewhere. -/
theorem allMasked_sanitizeFor (hp : IsSecretPrefix p) (hq : IsSecretPrefix q) {fuel : Nat}
    (h : p = q ∧ s.length ≤ fuel ∨ ¬ p <:+ q ∧ ¬ q <:+ p ∧ AllMasked p s) :
    AllMasked p (sanitizeFor q fuel s) := by
  induction fuel generalizing s with
  | zero =>
    rcases h with ⟨rfl, hle⟩ | ⟨-, -, h⟩
    · intro x y hxy
      rw [sanitizeFor] at hxy
      simp_all [hp.ne_nil]
    · exact h
  | succ fuel ih =>
    rw [sanitizeFor]
    split
    · rename_i hcut
      rcases h with ⟨rfl, -⟩ | ⟨-, -, h⟩
      · rintro x y rfl
        obtain ⟨_, _, hsome, -⟩ := Bytes.cut_append x p y
        rw [hcut] at hsome
        cases hsome
      · exact h
    · rename_i before rest hcut
      obtain ⟨hsuffix, hhead⟩ := after_spec rest
      dsimp only at hsuffix hhead ⊢
      generalize (if isMasked rest then rest.drop 3
        else rest.dropWhile fun b => !isDelim b) = after at hsuffix hhead ⊢
      have hs := Bytes.eq_of_cut hcut
      have hlength := hsuffix.length_le
      have hpos := List.length_pos_of_ne_nil hq.ne_nil
      have hafter : after <:+ s := hsuffix.trans (hs ▸ List.suffix_append _ rest)
      have ht : AllMasked p (sanitizeFor q fuel after) := by
        refine ih (h.imp (fun h => ⟨h.1, ?_⟩) fun h => ⟨h.1, h.2.1, h.2.2.suffix hafter⟩)
        rw [hs] at h
        simp only [List.length_append] at h
        omega
      have hmasked : isMasked (stars ++ sanitizeFor q fuel after) = true :=
        isMasked_iff.mpr ⟨_, rfl, head?_sanitizeFor hq.ne_nil fuel after ▸ hhead⟩
      intro x y hxy
      rw [List.append_assoc] at hxy
      rcases hp.occurrence_cases hxy with ⟨x', hx'⟩ | ⟨c, hc, rfl⟩
      · exact ht x' y hx'
      rcases h with ⟨rfl, -⟩ | ⟨hpq, hqp, h⟩
      · -- the first occurrence is the one that is masked here
        obtain ⟨_, _, hfirst, hle⟩ := Bytes.cut_append x p (c ++ rest)
        rw [← List.append_assoc, ← hc, ← hs, hcut] at hfirst
        cases hfirst
        have hc' := congrArg List.length hc
        simp only [List.length_append] at hc'
        rwa [List.eq_nil_of_length_eq_zero (show c.length = 0 by omega)]
      · have hold : isMasked (c ++ rest) = true := h x _ (by rw [hs, hc, List.append_assoc])
        rcases List.append_eq_append_iff.mp hc with ⟨a, hx, rfl⟩ | ⟨a, rfl, rfl⟩
        · -- the occurrence ends inside `q`, where no mask can start
          cases c with
          | nil =>
            simp_all
          | cons d c =>
            obtain ⟨_, hstars, -⟩ := isMasked_iff.mp hold
            have hd : d = 42 := (List.cons.inj hstars).1
            exact absurd (by simp [hd]) hq.star
        · rw [List.append_assoc] at hold ⊢
          exact hq.isMasked_append hold _

/-- A masked text is left alone. -/
theorem sanitizeFor_of_allMasked (h : AllMasked q s) (fuel : Nat) : sanitizeFor q fuel s = s := by
  induction fuel generalizing s with
  | zero => rfl
  | succ fuel ih =>
    rw [sanitizeFor]
    split
    · rfl
    · rename_i before rest hcut
      have hs := Bytes.eq_of_cut hcut
      have hmasked := h before rest hs
      obtain ⟨t, rfl, -⟩ := isMasked_iff.mp hmasked
      have ht : t <:+ s := by
        rw [hs, ← List.append_assoc]
        exact List.suffix_append _ t
      simp only [hmasked, if_true, show (stars ++ t).drop 3 = t from rfl, ih (h.suffix ht)]
      rw [hs, List.append_assoc]

/-- Every round takes something off the text, so that it is fuel enough for itself. -/
theorem sanitizeFor_of_le (hq : q ≠ []) {fuel fuel' : Nat} (h : s.length ≤ fuel)
    (h' : s.length ≤ fuel') : sanitizeFor q fuel s = sanitizeFor q fuel' s := by
  have hnil : ∀ fuel, sanitizeFor q fuel [] = [] :=
    sanitizeFor_of_allMasked fun x y hxy => by simp_all
  induction fuel generalizing s fuel' with
  | zero => rw [List.eq_nil_of_length_eq_zero (Nat.le_zero.mp h), hnil, hnil]
  | succ fuel ih =>
    cases fuel' with
    | zero => rw [List.eq_nil_of_length_eq_zero (Nat.le_zero.mp h'), hnil, hnil]
    | succ fuel' =>
      rw [sanitizeFor, sanitizeFor]
      split
      · rfl
      · rename_i before rest hcut
        have hlength := (after_spec rest).1.length_le
        have hpos := List.length_pos_of_ne_nil hq
        rw [Bytes.eq_of_cut hcut] at h h'
        simp only [List.length_append] at h h'
        dsimp only at hlength ⊢
        rw [ih (by omega) (show _ ≤ fuel' by omega)]

theorem isSecretPrefix_of_mem : ∀ p ∈ secretPrefixes, IsSecretPrefix p := by
  simp only [secretPrefixes, List.forall_mem_cons]
  exact ⟨⟨by decide, by decide, by decide⟩, ⟨by decide, by decide, by decide⟩,
    ⟨by decide, by decide, by decide⟩, by simp⟩

/-- A later pass keeps what an earlier one has masked. -/
theorem allMasked_sanitizeBody (s : Bytes) :
    ∀ p ∈ secretPrefixes, AllMasked p (sanitizeBody s) := by
  have hprefix := isSecretPrefix_of_mem
  simp only [secretPrefixes, List.forall_mem_cons] at hprefix ⊢
  obtain ⟨hsk, hkey, hbearer, -⟩ := hprefix
  refine ⟨?_, ?_, allMasked_sanitizeFor hbearer hbearer (.inl ⟨rfl, Nat.le_refl _⟩), by simp⟩
  · refine allMasked_sanitizeFor hsk hbearer (.inr ⟨by decide, by decide, ?_⟩)
    refine allMasked_sanitizeFor hsk hkey (.inr ⟨by decide, by decide, ?_⟩)
    exact allMasked_sanitizeFor hsk hsk (.inl ⟨rfl, Nat.le_refl _⟩)
  · refine allMasked_sanitizeFor hkey hbearer (.inr ⟨by decide, by decide, ?_⟩)
    exact allMasked_sanitizeFor hkey hkey (.inl ⟨rfl, Nat.le_refl _⟩)

/-- `SanitizeBody` masks every occurrence of a prefix, and a second call changes nothing. The loop
    ends: with any fuel from the length of the text on it gives the same. -/
theorem sanitizeBody_masks (s : Bytes) :
    (∀ p ∈ secretPrefixes, ∀ (t : Bytes) (fuel : Nat), t.length ≤ fuel →
      sanitizeFor p fuel t = sanitizeFor p t.length t) ∧
    (∀ p ∈ secretPrefixes, AllMasked p (sanitizeBody s)) ∧
    sanitizeBody (sanitizeBody s) = sanitizeBody s := by
  have hmasked := allMasked_sanitizeBody s
  refine ⟨fun p hp t fuel h => ?_, hmasked, ?_⟩
  · exact sanitizeFor_of_le (isSecretPrefix_of_mem p hp).ne_nil h (Nat.le_refl _)
  · simp only [secretPrefixes, List.forall_mem_cons] at hmasked
    obtain ⟨hsk, hkey, hbearer, -⟩ := hmasked
    generalize sanitizeBody s = t at hsk hkey hbearer ⊢
    simp [sanitizeBody, sanitizeFor_of_allMasked hsk, sanitizeFor_of_allMasked hkey,
      sanitizeFor_of_allMasked hbearer]

end MockAgents
