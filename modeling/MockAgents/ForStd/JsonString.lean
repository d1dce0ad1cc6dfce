import Mathlib.Data.List.Forall2
import MockAgents.ForStd.Utf8

/-!
# JSON strings

The strings of Go's `encoding/json`: the scanner's states inside a string, how the encoder
quotes a Go string, and how the decoder unquotes a literal. The text between the quotes of
a literal is called raw here.
-/

open Bytes (Seg segs replacement multibyte isCont hexDigit isUtf8)

namespace Json

open Bytes (isUtf8_append isUtf8_ascii segs_bad)

/-! ## Scanning -/

/-- The scanner's states inside a string: `stateInString`, after a backslash, and before
    the last `n + 1` digits of a `\u` escape. -/
inductive StrState where
  | normal
  | esc
  | hex (n : Nat)
  deriving DecidableEq

/-- The bytes that may follow a backslash, other than `u`. -/
def isSimpleEscape (b : UInt8) : Bool :=
  b == 34 || b == 92 || b == 47 || b == 98 || b == 102 || b == 110 || b == 114 || b == 116

/-- The value of a hexadecimal digit. -/
def hexVal (b : UInt8) : Option Nat :=
  if 48 ≤ b.toNat ∧ b.toNat ≤ 57 then some (b.toNat - 48)
  else if 97 ≤ b.toNat ∧ b.toNat ≤ 102 then some (b.toNat - 87)
  else if 65 ≤ b.toNat ∧ b.toNat ≤ 70 then some (b.toNat - 55)
  else none

/-- The state after one more byte of the raw text. There is none after a syntax error, and
    none after the closing quote. -/
def strStep : StrState → UInt8 → Option StrState
  | .normal, b =>
    if b = 34 ∨ b.toNat < 32 then none else if b = 92 then some .esc else some .normal
  | .esc, b =>
    if isSimpleEscape b then some .normal else if b = 117 then some (.hex 3) else none
  | .hex n, b =>
    if (hexVal b).isNone then none
    else match n with
      | 0 => some .normal
      | n + 1 => some (.hex n)

/-- The state after more of the raw text. -/
def strSteps (st : StrState) (s : Bytes) : Option StrState := s.foldlM strStep st

/-- The text between the quotes of a string literal. -/
def IsRaw (raw : Bytes) : Prop := strSteps .normal raw = some .normal

instance (raw : Bytes) : Decidable (IsRaw raw) :=
  inferInstanceAs (Decidable (strSteps .normal raw = some .normal))

/-- Scan a string literal from inside it: the raw text up to the closing quote, and what
    follows the quote. -/
def scanString : StrState → Bytes → Option (Bytes × Bytes)
  | _, [] => none
  | st, b :: rest =>
    if st = .normal ∧ b = 34 then some ([], rest)
    else
      match strStep st b with
      | none => none
      | some st' => (scanString st' rest).map fun (raw, r) => (b :: raw, r)

/-! ## Unquoting -/

def encodeRune (r : Nat) : Bytes :=
  if r < 0x80 then [UInt8.ofNat r]
  else if r < 0x800 then [UInt8.ofNat (0xC0 + r / 64), UInt8.ofNat (0x80 + r % 64)]
  else if 0xD800 ≤ r ∧ r < 0xE000 ∨ 0x10FFFF < r then replacement
  else if r < 0x10000 then
    [UInt8.ofNat (0xE0 + r / 4096), UInt8.ofNat (0x80 + r / 64 % 64), UInt8.ofNat (0x80 + r % 64)]
  else
    [UInt8.ofNat (0xF0 + r / 262144), UInt8.ofNat (0x80 + r / 4096 % 64),
      UInt8.ofNat (0x80 + r / 64 % 64), UInt8.ofNat (0x80 + r % 64)]

/-- The number that four hexadecimal digits make. -/
def hex4 (a₁ a₂ a₃ a₄ : UInt8) : Option Nat :=
  match hexVal a₁, hexVal a₂, hexVal a₃, hexVal a₄ with
  | some d₁, some d₂, some d₃, some d₄ => some (d₁ * 4096 + d₂ * 256 + d₃ * 16 + d₄)
  | _, _, _, _ => none

/-- What a backslash and this byte stand for. -/
def simpleEscape (b : UInt8) : Option UInt8 :=
  if b = 34 ∨ b = 92 ∨ b = 47 ∨ b = 39 then some b
  else if b = 98 then some 8
  else if b = 102 then some 12
  else if b = 110 then some 10
  else if b = 114 then some 13
  else if b = 116 then some 9
  else none

/-- What one piece of a raw text stands for: bytes of the string, or the 16 bits of a `\u`
    escape. -/
inductive CodeUnit where
  | bytes (bs : Bytes)
  | code (r : Nat)

def codeUnits : List Seg → Option (List CodeUnit)
  | [] => some []
  | .rune bs :: rest => (codeUnits rest).map (.bytes bs :: ·)
  | .bad _ :: rest => (codeUnits rest).map (.bytes replacement :: ·)
  | .ascii b :: rest =>
    if b = 92 then
      match rest with
      | .ascii c :: rest =>
        if c = 117 then
          match rest with
          | .ascii a₁ :: .ascii a₂ :: .ascii a₃ :: .ascii a₄ :: rest =>
            match hex4 a₁ a₂ a₃ a₄ with
            | some r => (codeUnits rest).map (.code r :: ·)
            | none => none
          | _ => none
        else
          match simpleEscape c with
          | some b => (codeUnits rest).map (.bytes [b] :: ·)
          | none => none
      | _ => none
    else if b = 34 ∨ b.toNat < 32 then none
    else (codeUnits rest).map (.bytes [b] :: ·)

def isSurrogate (r : Nat) : Bool := decide (0xD800 ≤ r ∧ r < 0xE000)

/-- `utf16.DecodeRune`, `none` if the two are no surrogate pair. -/
def surrogatePair (r r' : Nat) : Option Nat :=
  if 0xD800 ≤ r ∧ r < 0xDC00 ∧ 0xDC00 ≤ r' ∧ r' < 0xE000 then
    some (0x10000 + (r - 0xD800) * 1024 + (r' - 0xDC00))
  else none

/-- The string that code units make. A lone surrogate is U+FFFD. -/
def decodeUnits : List CodeUnit → Bytes
  | [] => []
  | .bytes bs :: rest => bs ++ decodeUnits rest
  | .code r :: rest =>
    if isSurrogate r then
      match rest with
      | .code r' :: rest' =>
        match surrogatePair r r' with
        | some rune => encodeRune rune ++ decodeUnits rest'
        | none => replacement ++ decodeUnits (.code r' :: rest')
      | rest => replacement ++ decodeUnits rest
    else encodeRune r ++ decodeUnits rest

/-- `unquote`: the Go string of a raw text. -/
def unquote (raw : Bytes) : Option Bytes := (codeUnits (segs raw)).map decodeUnits

/-! ## Quoting -/

def escapeU00 (b : UInt8) : Bytes :=
  [92, 117, 48, 48, hexDigit (b.toNat / 16), hexDigit (b.toNat % 16)]

/-- The bytes of a rune, escaped if it is U+2028 or U+2029. -/
def escapeRune (bs : Bytes) : Bytes :=
  if bs = [0xE2, 0x80, 0xA8] then [92, 117, 50, 48, 50, 56]
  else if bs = [0xE2, 0x80, 0xA9] then [92, 117, 50, 48, 50, 57]
  else bs

/-- `<`, `>` and `&`, which the encoder escapes unless told not to. -/
def isHTML (b : UInt8) : Bool := b == 60 || b == 62 || b == 38

/-- How the encoder writes one segment of a string. -/
def quoteSeg (html : Bool) : Seg → Bytes
  | .ascii b =>
    if b = 34 ∨ b = 92 then [92, b]
    else if b = 8 then [92, 98]
    else if b = 12 then [92, 102]
    else if b = 10 then [92, 110]
    else if b = 13 then [92, 114]
    else if b = 9 then [92, 116]
    else if b.toNat < 32 ∨ html ∧ isHTML b then escapeU00 b
    else [b]
  | .rune bs => escapeRune bs
  | .bad _ => [92, 117, 102, 102, 102, 100]

/-- The raw text of a Go string. -/
def quote (html : Bool) (s : Bytes) : Bytes := (segs s).flatMap (quoteSeg html)

/-- What HTML escaping makes of one segment of a raw text. -/
def escapeSeg : Seg → Bytes
  | .ascii b => if isHTML b then escapeU00 b else [b]
  | .rune bs => escapeRune bs
  | .bad b => [b]

/-- A raw text as `appendCompact` copies it when it escapes HTML. -/
def escapeRaw (raw : Bytes) : Bytes := (segs raw).flatMap escapeSeg

/-! ## The scanner -/

theorem strSteps_append (st : StrState) (a b : Bytes) :
    strSteps st (a ++ b) = (strSteps st a).bind (strSteps · b) := by
  simp only [strSteps, List.foldlM_append]
  rfl

theorem strSteps_cons (st : StrState) (b : UInt8) (s : Bytes) :
    strSteps st (b :: s) = (strStep st b).bind (strSteps · s) := by
  simp only [strSteps, List.foldlM_cons]
  rfl

variable {s raw : Bytes}

/-- A scan stops at the quote after which the text before it is a raw text. -/
theorem scanString_eq_some_iff {st : StrState} {r : Bytes} :
    scanString st s = some (raw, r) ↔ strSteps st raw = some .normal ∧ s = raw ++ 34 :: r := by
  induction s generalizing st raw with
  | nil => simp [scanString]
  | cons b s ih =>
    simp only [scanString]
    split
    · rename_i hclose
      obtain ⟨rfl, rfl⟩ := hclose
      constructor
      · rintro ⟨⟩
        exact ⟨rfl, rfl⟩
      · rintro ⟨hraw, heq⟩
        cases raw with
        | nil => simpa using heq
        | cons c raw =>
          -- a quote is no part of the raw text
          rw [List.cons_append, List.cons.injEq] at heq
          rw [← heq.1, strSteps_cons] at hraw
          simp [strStep] at hraw
    · rename_i hopen
      cases hstep : strStep st b with
      | none =>
        simp only [reduceCtorEq, false_iff]
        rintro ⟨hraw, heq⟩
        cases raw with
        | nil =>
          rw [List.nil_append, List.cons.injEq] at heq
          exact hopen ⟨Option.some.inj hraw, heq.1⟩
        | cons c raw =>
          rw [List.cons_append, List.cons.injEq] at heq
          rw [← heq.1, strSteps_cons, hstep] at hraw
          cases hraw
      | some st' =>
        constructor
        · intro h
          obtain ⟨⟨raw', r'⟩, hscan, heq⟩ := Option.map_eq_some_iff.mp h
          cases heq
          obtain ⟨hsteps, hs⟩ := ih.mp hscan
          rw [strSteps_cons, hstep, hs]
          exact ⟨hsteps, rfl⟩
        · rintro ⟨hraw, heq⟩
          cases raw with
          | nil =>
            rw [List.nil_append, List.cons.injEq] at heq
            exact absurd ⟨Option.some.inj hraw, heq.1⟩ hopen
          | cons c raw =>
            rw [List.cons_append, List.cons.injEq] at heq
            obtain ⟨rfl, hs⟩ := heq
            rw [strSteps_cons, hstep] at hraw
            show (scanString st' s).map _ = _
            rw [ih.mpr ⟨hraw, hs⟩]
            rfl

theorem IsRaw.append {a b : Bytes} (ha : IsRaw a) (hb : IsRaw b) : IsRaw (a ++ b) := by
  unfold IsRaw at *
  rw [strSteps_append, ha]
  exact hb

variable {n : Nat}

theorem hexVal_hexDigit (h : n < 16) : hexVal (hexDigit n) = some n := by
  have hall : ∀ n : Fin 16, hexVal (hexDigit n) = some n.val := by decide
  exact hall ⟨n, h⟩

variable {a₁ a₂ a₃ a₄ : UInt8} {r : Nat}

theorem strSteps_hex (h : hex4 a₁ a₂ a₃ a₄ = some r) (rest : Bytes) :
    strSteps .normal (92 :: 117 :: a₁ :: a₂ :: a₃ :: a₄ :: rest) =
      strSteps .normal rest := by
  simp only [hex4] at h
  split at h
  · rename_i h₁ h₂ h₃ h₄
    simp [strSteps_cons, strStep, isSimpleEscape, h₁, h₂, h₃, h₄]
  · cases h

variable {c : UInt8}

theorem strSteps_simple (h : isSimpleEscape c = true) (rest : Bytes) :
    strSteps .normal (92 :: c :: rest) = strSteps .normal rest := by
  simp [strSteps_cons, strStep, h]

variable {b : UInt8}

theorem strSteps_plain (h34 : b ≠ 34) (h92 : b ≠ 92) (h32 : 32 ≤ b.toNat) (rest : Bytes) :
    strSteps .normal (b :: rest) = strSteps .normal rest := by
  have hlt : ¬ b.toNat < 32 := by omega
  simp [strSteps_cons, strStep, h34, h92, hlt]

variable {bs : Bytes}

theorem strSteps_not_ascii (h : ∀ b ∈ bs, ¬ b.toNat < 0x80) (rest : Bytes) :
    strSteps .normal (bs ++ rest) = strSteps .normal rest := by
  induction bs with
  | nil => rfl
  | cons b bs ih =>
    have hb := h b (by simp)
    have h34 : b ≠ 34 := by rintro rfl; exact hb (by decide)
    have h92 : b ≠ 92 := by rintro rfl; exact hb (by decide)
    rw [List.cons_append, strSteps_plain h34 h92 (by omega), ih fun x hx => h x (by simp [hx])]

theorem hex4_u00 (b : UInt8) :
    hex4 48 48 (hexDigit (b.toNat / 16)) (hexDigit (b.toNat % 16)) =
      some b.toNat := by
  have hb := b.toNat_lt
  have hzero : hexVal 48 = some 0 := by decide
  simp only [hex4, hzero, hexVal_hexDigit (show b.toNat / 16 < 16 by omega),
    hexVal_hexDigit (show b.toNat % 16 < 16 by omega), Option.some.injEq]
  omega

variable {rest : Bytes}

/-- What follows a backslash in a raw text. -/
theorem IsRaw.escape_cases (h : IsRaw (92 :: rest)) :
    (∃ c r, rest = c :: r ∧ isSimpleEscape c = true ∧ IsRaw r) ∨
      ∃ a₁ a₂ a₃ a₄ v r, rest = 117 :: a₁ :: a₂ :: a₃ :: a₄ :: r ∧
        hex4 a₁ a₂ a₃ a₄ = some v ∧ IsRaw r := by
  have hesc : strSteps .esc rest = some .normal := h
  -- a digit of the escape, which the scanner must find
  have digit : ∀ {n : Nat} {s : Bytes}, strSteps (.hex n) s = some .normal →
      ∃ a v r, s = a :: r ∧ hexVal a = some v ∧
        strSteps (match n with | 0 => .normal | n + 1 => .hex n) r = some .normal := by
    intro n s hs
    cases s with
    | nil => cases hs
    | cons a r =>
      cases ha : hexVal a with
      | none => simp [strSteps_cons, strStep, ha] at hs
      | some v =>
        refine ⟨a, v, r, rfl, ha, ?_⟩
        cases n <;> simpa [strSteps_cons, strStep, ha] using hs
  cases rest with
  | nil => cases hesc
  | cons c r =>
    by_cases hc : isSimpleEscape c = true
    · have hr : strSteps .normal r = some .normal := by
        simpa [strSteps_cons, strStep, hc] using hesc
      exact .inl ⟨c, r, rfl, hc, hr⟩
    · by_cases hu : c = 117
      · subst hu
        have hhex : strSteps (.hex 3) r = some .normal := by
          simpa [strSteps_cons, strStep, hc] using hesc
        obtain ⟨a₁, v₁, r, rfl, h₁, hhex⟩ := digit hhex
        obtain ⟨a₂, v₂, r, rfl, h₂, hhex⟩ := digit hhex
        obtain ⟨a₃, v₃, r, rfl, h₃, hhex⟩ := digit hhex
        obtain ⟨a₄, v₄, r, rfl, h₄, hhex⟩ := digit hhex
        have hv : hex4 a₁ a₂ a₃ a₄ = some (v₁ * 4096 + v₂ * 256 + v₃ * 16 + v₄) := by
          simp only [hex4, h₁, h₂, h₃, h₄]
        exact .inr ⟨a₁, a₂, a₃, a₄, _, r, rfl, hv, hhex⟩
      · simp [strSteps_cons, strStep, hc, hu] at hesc

/-- A raw text piece by piece: plain bytes, escapes, runes and bytes that are not UTF-8. -/
inductive RawPieces : Bytes → Prop
  | nil : RawPieces []
  | plain (b : UInt8) (rest : Bytes) : b.toNat < 0x80 → b ≠ 34 → b ≠ 92 → 32 ≤ b.toNat →
      RawPieces rest → RawPieces (b :: rest)
  | simple (c : UInt8) (rest : Bytes) : isSimpleEscape c = true → RawPieces rest →
      RawPieces (92 :: c :: rest)
  | hex (a₁ a₂ a₃ a₄ : UInt8) (r : Nat) (rest : Bytes) : hex4 a₁ a₂ a₃ a₄ = some r →
      RawPieces rest → RawPieces (92 :: 117 :: a₁ :: a₂ :: a₃ :: a₄ :: rest)
  | rune (bs rest : Bytes) : multibyte bs = some bs → RawPieces rest →
      RawPieces (bs ++ rest)
  | bad (b : UInt8) (rest : Bytes) : ¬ b.toNat < 0x80 → multibyte (b :: rest) = none →
      RawPieces rest → RawPieces (b :: rest)

theorem IsRaw.pieces (hraw : IsRaw raw) : RawPieces raw := by
  induction hn : raw.length using Nat.strongRecOn generalizing raw with
  | ind n ih =>
    obtain rfl | ⟨b, rest, rfl, hb⟩ | ⟨bs, rest, rfl, hbs⟩ | ⟨b, rest, rfl, hb, hm⟩ :=
      Bytes.seg_cases raw
    · exact .nil
    · by_cases h92 : b = 92
      · subst h92
        obtain ⟨c, r, rfl, hc, hr⟩ | ⟨a₁, a₂, a₃, a₄, v, r, rfl, hv, hr⟩ := hraw.escape_cases
        · exact .simple c r hc (ih r.length (by simp at hn; omega) hr rfl)
        · exact .hex a₁ a₂ a₃ a₄ v r hv (ih r.length (by simp at hn; omega) hr rfl)
      · have hplain : ¬ (b = 34 ∨ b.toNat < 32) := by
          intro hstop
          simp [IsRaw, strSteps_cons, strStep, hstop] at hraw
        have h34 : b ≠ 34 := fun h => hplain (.inl h)
        have h32 : 32 ≤ b.toNat := by omega
        have hrest : IsRaw rest := by
          rw [IsRaw, strSteps_plain h34 h92 h32] at hraw
          exact hraw
        exact .plain b rest hb h34 h92 h32 (ih rest.length (by simp at hn; omega) hrest rfl)
    · have hpos := Bytes.length_pos_of_multibyte hbs
      have hrest : IsRaw rest := by
        rw [IsRaw, strSteps_not_ascii fun b => Bytes.not_ascii_of_multibyte hbs] at hraw
        exact hraw
      exact .rune bs rest hbs (ih rest.length (by simp at hn; omega) hrest rfl)
    · have hrest : IsRaw rest := by
        rw [IsRaw, ← List.singleton_append, strSteps_not_ascii (by simpa using hb)] at hraw
        exact hraw
      exact .bad b rest hb hm (ih rest.length (by simp at hn; omega) hrest rfl)

/-! ## Code units -/

theorem codeUnits_plain (h34 : b ≠ 34) (h92 : b ≠ 92) (h32 : 32 ≤ b.toNat) (l : List Seg) :
    codeUnits (.ascii b :: l) = (codeUnits l).map (.bytes [b] :: ·) := by
  have hlt : ¬ b.toNat < 32 := by omega
  rw [codeUnits.eq_def]
  simp [h34, h92, hlt]

theorem codeUnits_simple (h : simpleEscape c = some b) (l : List Seg) :
    codeUnits (.ascii 92 :: .ascii c :: l) = (codeUnits l).map (.bytes [b] :: ·) := by
  have hu : c ≠ 117 := by
    rintro rfl
    simp [simpleEscape] at h
  rw [codeUnits.eq_def]
  simp [h, hu]

theorem codeUnits_hex (h : hex4 a₁ a₂ a₃ a₄ = some r) (l : List Seg) :
    codeUnits (.ascii 92 :: .ascii 117 :: .ascii a₁ :: .ascii a₂ :: .ascii a₃ :: .ascii a₄ :: l) =
      (codeUnits l).map (.code r :: ·) := by
  refine (if_pos rfl).trans ((if_pos rfl).trans ?_)
  rw [h]

theorem decodeUnits_code (h : isSurrogate r = false) (us : List CodeUnit) :
    decodeUnits (.code r :: us) = encodeRune r ++ decodeUnits us := by
  rw [decodeUnits.eq_def (.code r :: us)]
  simp [h]

/-- The two units stand for the same bytes and neither is half of a surrogate pair, or they
    are equal. -/
def CodeUnit.Same (u u' : CodeUnit) : Prop :=
  u = u' ∨ ∃ r, isSurrogate r = false ∧ u = .bytes (encodeRune r) ∧ u' = .code r

theorem CodeUnit.Same.code_left {u' : CodeUnit} (h : Same (.code r) u') : u' = .code r := by
  obtain h | ⟨_, _, hcode, _⟩ := h
  · exact h.symm
  · cases hcode

variable {us : List CodeUnit}

/-- A surrogate that the next unit does not complete. -/
theorem decodeUnits_lone (hr : isSurrogate r = true)
    (h : ∀ r' us', us = .code r' :: us' → surrogatePair r r' = none) :
    decodeUnits (.code r :: us) = replacement ++ decodeUnits us := by
  rw [decodeUnits.eq_def (.code r :: us)]
  simp only [hr, if_true]
  split
  · rw [h _ _ rfl]
  · rfl

theorem decodeUnits_congr {us' : List CodeUnit} (h : List.Forall₂ CodeUnit.Same us us') :
    decodeUnits us = decodeUnits us' := by
  fun_induction decodeUnits us generalizing us' with
  | case1 =>
    cases h
    rfl
  | case2 bs rest ih =>
    cases h with
    | cons hu hrest =>
      obtain rfl | ⟨r, hr, hbs, rfl⟩ := hu
      · rw [ih hrest]
        rfl
      · obtain rfl := CodeUnit.bytes.inj hbs
        rw [decodeUnits_code hr, ih hrest]
  | case3 r hr r' rest' rune hpair ih =>
    obtain ⟨u, us₁, hu, htail, rfl⟩ := List.forall₂_cons_left_iff.mp h
    obtain ⟨u', us₂, hu', hrest, rfl⟩ := List.forall₂_cons_left_iff.mp htail
    obtain rfl := hu.code_left
    obtain rfl := hu'.code_left
    rw [ih hrest, decodeUnits.eq_3, if_pos hr, hpair]
  | case4 r hr r' rest' hpair ih =>
    obtain ⟨u, us', hu, hrest, rfl⟩ := List.forall₂_cons_left_iff.mp h
    obtain rfl := hu.code_left
    rw [ih hrest]
    obtain ⟨u', us', hu', _, rfl⟩ := List.forall₂_cons_left_iff.mp hrest
    obtain rfl := hu'.code_left
    refine (decodeUnits_lone hr ?_).symm
    rintro _ _ ⟨⟩
    exact hpair
  | case5 r hr rest hnot ih =>
    obtain ⟨u, us', hu, hrest, rfl⟩ := List.forall₂_cons_left_iff.mp h
    obtain rfl := hu.code_left
    rw [ih hrest]
    refine (decodeUnits_lone hr ?_).symm
    -- a unit that is a code only on the right is no surrogate
    rintro r' us'' rfl
    obtain ⟨u, rest', hu, hrest', rfl⟩ := List.forall₂_cons_right_iff.mp hrest
    obtain rfl | ⟨_, hr', _, hcode⟩ := hu
    · exact absurd rfl (hnot r' rest')
    · obtain rfl := CodeUnit.code.inj hcode
      simp only [isSurrogate, decide_eq_false_iff_not] at hr'
      rw [surrogatePair, if_neg (by omega)]
  | case6 r rest hr ih =>
    obtain ⟨u, us', hu, hrest, rfl⟩ := List.forall₂_cons_left_iff.mp h
    obtain rfl := hu.code_left
    rw [decodeUnits_code (by simpa using hr), ih hrest]

/-! ## The encoder -/

theorem isRaw_simple (h : isSimpleEscape c = true) : IsRaw [92, c] :=
  (strSteps_simple h []).trans rfl

theorem isRaw_hex (h : hex4 a₁ a₂ a₃ a₄ = some r) : IsRaw [92, 117, a₁, a₂, a₃, a₄] :=
  (strSteps_hex h []).trans rfl

theorem isRaw_plain (h34 : b ≠ 34) (h92 : b ≠ 92) (h32 : 32 ≤ b.toNat) : IsRaw [b] :=
  (strSteps_plain h34 h92 h32 []).trans rfl

/-- A byte that stands for itself in a raw text. -/
def isPlain (b : UInt8) : Bool := decide (b ≠ 34 ∧ b ≠ 92 ∧ 32 ≤ b.toNat)

theorem isRaw_of_isPlain (h : s.all isPlain = true) : IsRaw s := by
  induction s with
  | nil => rfl
  | cons b s ih =>
    simp only [List.all_cons, Bool.and_eq_true, isPlain, decide_eq_true_eq] at h
    exact (isRaw_plain h.1.1 h.1.2.1 h.1.2.2).append (ih h.2)

theorem isRaw_not_ascii (h : ∀ b ∈ bs, ¬ b.toNat < 0x80) : IsRaw bs := by
  have := strSteps_not_ascii h []
  rw [List.append_nil] at this
  exact this.trans rfl

/-- In front of any text, `w` is one piece, the unit `u`. -/
def Writes (w : Bytes) (u : CodeUnit) : Prop :=
  ∀ t, codeUnits (segs (w ++ t)) = (codeUnits (segs t)).map (u :: ·)

theorem writes_plain (hb : b.toNat < 0x80) (h34 : b ≠ 34) (h92 : b ≠ 92) (h32 : 32 ≤ b.toNat) :
    Writes [b] (.bytes [b]) := by
  intro t
  rw [List.singleton_append, Bytes.segs_ascii hb, codeUnits_plain h34 h92 h32]

theorem simpleEscape_isSome (h : isSimpleEscape c = true) :
    c.toNat < 0x80 ∧ ∃ b, simpleEscape c = some b := by
  simp only [isSimpleEscape, Bool.or_eq_true, beq_iff_eq] at h
  rcases h with ((((((rfl | rfl) | rfl) | rfl) | rfl) | rfl) | rfl) | rfl <;>
    exact ⟨by decide, _, rfl⟩

theorem writes_simple (hc : c.toNat < 0x80) (h : simpleEscape c = some b) :
    Writes [92, c] (.bytes [b]) := by
  intro t
  have hascii : ∀ x ∈ [92, c], x.toNat < 0x80 := by simpa using hc
  rw [Bytes.segs_append_ascii hascii]
  exact codeUnits_simple h _

variable {a : UInt8} {v : Nat}

theorem hexVal_ascii (h : hexVal a = some v) : a.toNat < 0x80 := by
  unfold hexVal at h
  split at h
  · omega
  · split at h
    · omega
    · split at h
      · omega
      · cases h

theorem writes_hex (h : hex4 a₁ a₂ a₃ a₄ = some r) :
    Writes [92, 117, a₁, a₂, a₃, a₄] (.code r) := by
  intro t
  have hascii : ∀ x ∈ [92, 117, a₁, a₂, a₃, a₄], x.toNat < 0x80 := by
    simp only [hex4] at h
    split at h
    · rename_i h₁ h₂ h₃ h₄
      simp [hexVal_ascii h₁, hexVal_ascii h₂, hexVal_ascii h₃, hexVal_ascii h₄]
    · cases h
  rw [Bytes.segs_append_ascii hascii]
  exact codeUnits_hex h _

theorem writes_rune (h : multibyte bs = some bs) : Writes bs (.bytes bs) := by
  intro t
  rw [Bytes.segs_rune h]
  rfl

theorem same_bytes_code (hb : b.toNat < 0x80) : CodeUnit.Same (.bytes [b]) (.code b.toNat) := by
  refine .inr ⟨b.toNat, ?_, ?_, rfl⟩
  · simp only [isSurrogate, decide_eq_false_iff_not]
    omega
  · simp [encodeRune, hb]

theorem escapeU00_writes (b : UInt8) : Writes (escapeU00 b) (.code b.toNat) :=
  writes_hex (hex4_u00 b)

theorem escapeRune_writes (h : multibyte bs = some bs) :
    ∃ u, Writes (escapeRune bs) u ∧ CodeUnit.Same (.bytes bs) u ∧ IsRaw (escapeRune bs) := by
  unfold escapeRune
  split
  · rename_i hbs
    exact ⟨.code 0x2028, writes_hex (by decide), .inr ⟨0x2028, by decide, by rw [hbs]; rfl, rfl⟩,
      by decide⟩
  · split
    · rename_i hbs
      exact ⟨.code 0x2029, writes_hex (by decide), .inr ⟨0x2029, by decide, by rw [hbs]; rfl, rfl⟩,
        by decide⟩
    · exact ⟨.bytes bs, writes_rune h, .inl rfl,
        isRaw_not_ascii fun b => Bytes.not_ascii_of_multibyte h⟩

variable (html : Bool)

/-- The encoder writes an ASCII byte as one piece that stands for it. -/
theorem quoteSeg_ascii_writes (hb : b.toNat < 0x80) :
    ∃ u, Writes (quoteSeg html (.ascii b)) u ∧ CodeUnit.Same (.bytes [b]) u ∧
      IsRaw (quoteSeg html (.ascii b)) := by
  have simple : ∀ {c b : UInt8}, isSimpleEscape c = true → simpleEscape c = some b →
      ∃ u, Writes [92, c] u ∧ CodeUnit.Same (.bytes [b]) u ∧ IsRaw [92, c] :=
    fun hc h => ⟨_, writes_simple (simpleEscape_isSome hc).1 h, .inl rfl, isRaw_simple hc⟩
  simp only [quoteSeg]
  split
  · rename_i h
    rcases h with rfl | rfl <;> exact simple rfl rfl
  iterate 5
    split
    · subst b
      exact simple rfl rfl
  split
  · exact ⟨_, escapeU00_writes b, same_bytes_code hb, isRaw_hex (hex4_u00 b)⟩
  · rename_i hquote _ _ _ _ _ hescape
    rw [not_or] at hquote hescape
    exact ⟨_, writes_plain hb hquote.1 hquote.2 (by omega), .inl rfl,
      isRaw_plain hquote.1 hquote.2 (by omega)⟩

/-- The encoder writes a segment as one piece that stands for it. -/
theorem quoteSeg_writes {x : Seg} (hx : x ∈ segs s) :
    ∃ u, Writes (quoteSeg html x) u ∧ CodeUnit.Same (.bytes x.validBytes) u ∧
      IsRaw (quoteSeg html x) := by
  obtain ⟨b, hb, rfl⟩ | ⟨bs, hbs, rfl⟩ | ⟨b, rfl⟩ := Bytes.mem_segs_cases hx
  · exact quoteSeg_ascii_writes html hb
  · exact escapeRune_writes hbs
  · have hhex : hex4 102 102 102 100 = some 0xFFFD := by decide
    exact ⟨.code 0xFFFD, writes_hex hhex, .inr ⟨0xFFFD, by decide, by rfl, rfl⟩, isRaw_hex hhex⟩

/-- The encoder writes the raw text of a literal, and its code units stand for the segments. -/
theorem codeUnits_quote (s : Bytes) :
    IsRaw (quote html s) ∧ ∃ us, codeUnits (segs (quote html s)) = some us ∧
      List.Forall₂ CodeUnit.Same ((segs s).map fun x => .bytes x.validBytes) us := by
  have hpieces := fun x (hx : x ∈ segs s) => quoteSeg_writes html hx
  rw [quote]
  generalize segs s = l at hpieces ⊢
  induction l with
  | nil => exact ⟨rfl, [], rfl, .nil⟩
  | cons x l ih =>
    obtain ⟨u, hw, hu, hx⟩ := hpieces x (by simp)
    obtain ⟨hl, us, hus, hsame⟩ := ih fun y hy => hpieces y (by simp [hy])
    refine ⟨hx.append hl, u :: us, ?_, .cons hu hsame⟩
    rw [List.flatMap_cons, hw, hus]
    rfl

theorem isRaw_quote (s : Bytes) : IsRaw (quote html s) := (codeUnits_quote html s).1

theorem decodeUnits_map_bytes {α : Type} (f : α → Bytes) (l : List α) :
    decodeUnits (l.map fun x => .bytes (f x)) = l.flatMap f := by
  induction l with
  | nil => rfl
  | cons x l ih =>
    rw [List.flatMap_cons, ← ih]
    rfl

theorem unquote_quote (s : Bytes) : unquote (quote html s) = some (Bytes.toValid s) := by
  obtain ⟨_, us, hus, hsame⟩ := codeUnits_quote html s
  rw [unquote, hus, Option.map_some, ← decodeUnits_congr hsame, decodeUnits_map_bytes]
  rfl

/-! ## What a literal stands for is valid -/

theorem toNat_ofNat_of_lt (h : n < 256) : (UInt8.ofNat n).toNat = n := by
  rw [UInt8.toNat_ofNat']
  omega

theorem isCont_ofNat (n : Nat) : isCont (UInt8.ofNat (0x80 + n % 64)) = true := by
  rw [Bytes.isCont_iff, toNat_ofNat_of_lt (by omega)]
  omega

theorem multibyte_encodeRune (h : 0x80 ≤ r) :
    multibyte (encodeRune r) = some (encodeRune r) := by
  unfold encodeRune
  rw [if_neg (by omega)]
  split
  · have h₀ := toNat_ofNat_of_lt (show 0xC0 + r / 64 < 256 by omega)
    exact Bytes.multibyte_two (by omega) (isCont_ofNat r)
  · split
    · decide
    · -- neither overlong nor a surrogate: the range of the second byte
      split
      · have h₀ := toNat_ofNat_of_lt (show 0xE0 + r / 4096 < 256 by omega)
        have h₁ := toNat_ofNat_of_lt (show 0x80 + r / 64 % 64 < 256 by omega)
        exact Bytes.multibyte_three (by omega) (by omega) (by omega) (isCont_ofNat _)
          (isCont_ofNat _)
      · have h₀ := toNat_ofNat_of_lt (show 0xF0 + r / 262144 < 256 by omega)
        have h₁ := toNat_ofNat_of_lt (show 0x80 + r / 4096 % 64 < 256 by omega)
        exact Bytes.multibyte_four (by omega) (by omega) (by omega) (isCont_ofNat _)
          (isCont_ofNat _) (isCont_ofNat _)

theorem isUtf8_encodeRune (r : Nat) : isUtf8 (encodeRune r) = true := by
  by_cases h : r < 0x80
  · rw [encodeRune, if_pos h]
    apply isUtf8_ascii
    rw [toNat_ofNat_of_lt (by omega)]
    exact h
  · exact Bytes.isUtf8_rune (multibyte_encodeRune (by omega))

def CodeUnit.Valid : CodeUnit → Prop
  | .bytes bs => isUtf8 bs = true
  | .code _ => True

theorem isUtf8_decodeUnits (h : ∀ u ∈ us, u.Valid) : isUtf8 (decodeUnits us) = true := by
  fun_induction decodeUnits us with
  | case1 => rfl
  | case2 bs rest ih =>
    exact isUtf8_append (h (.bytes bs) (by simp)) (ih fun u hu => h u (by simp [hu]))
  | case3 r hr r' rest' rune hpair ih =>
    exact isUtf8_append (isUtf8_encodeRune rune) (ih fun u hu => h u (by simp [hu]))
  | case4 r hr r' rest' hpair ih =>
    exact isUtf8_append rfl (ih fun u hu => h u (List.mem_cons_of_mem _ hu))
  | case5 r hr rest hnot ih =>
    exact isUtf8_append rfl (ih fun u hu => h u (by simp [hu]))
  | case6 r rest hr ih =>
    exact isUtf8_append (isUtf8_encodeRune r) (ih fun u hu => h u (by simp [hu]))

theorem simpleEscape_ascii (hc : c.toNat < 0x80) (h : simpleEscape c = some b) :
    b.toNat < 0x80 := by
  unfold simpleEscape at h
  split at h
  · rwa [← Option.some.inj h]
  · -- the other escapes stand for control characters
    have hctl : b = 8 ∨ b = 12 ∨ b = 10 ∨ b = 13 ∨ b = 9 := by
      grind
    rcases hctl with rfl | rfl | rfl | rfl | rfl <;> decide

/-! ## HTML escaping -/

theorem escapeRaw_ascii (hb : b.toNat < 0x80) (rest : Bytes) :
    escapeRaw (b :: rest) = (if isHTML b then escapeU00 b else [b]) ++ escapeRaw rest := by
  simp [escapeRaw, Bytes.segs_ascii hb, escapeSeg]

theorem escapeRaw_rune (h : multibyte bs = some bs) (rest : Bytes) :
    escapeRaw (bs ++ rest) = escapeRune bs ++ escapeRaw rest := by
  simp [escapeRaw, Bytes.segs_rune h, escapeSeg]

theorem escapeRaw_bad (hb : ¬ b.toNat < 0x80) (hm : multibyte (b :: rest) = none) :
    escapeRaw (b :: rest) = b :: escapeRaw rest := by
  simp [escapeRaw, segs_bad hb hm, escapeSeg]

theorem not_isCont_of_ascii (hb : b.toNat < 0x80) : isCont b = false := by
  simp only [isCont, decide_eq_false_iff_not]
  omega

/-- Escaping replaces ASCII bytes and the first byte of a rune, no continuation byte. -/
theorem takeWhile_escapeRaw (s : Bytes) :
    (escapeRaw s).takeWhile isCont = s.takeWhile isCont := by
  have stop : ∀ {b : UInt8} (t : Bytes), isCont b = false →
      (b :: t).takeWhile isCont = [] := by
    intro b t hb
    rw [List.takeWhile_cons_of_neg (by simp [hb])]
  induction s using Bytes.segInduction with
  | nil => rfl
  | ascii b rest hb ih =>
    rw [escapeRaw_ascii hb, stop rest (not_isCont_of_ascii hb)]
    split
    · exact stop _ (by decide)
    · exact stop _ (not_isCont_of_ascii hb)
  | rune bs rest hbs ih =>
    obtain ⟨b₀, t, _, rfl, _, hlead, _⟩ := Bytes.multibyte_eq_some hbs
    have hb₀ : isCont b₀ = false := by
      simp only [isCont, decide_eq_false_iff_not]
      omega
    rw [escapeRaw_rune hbs, List.cons_append, stop _ hb₀, escapeRune]
    split
    · exact stop _ (by decide)
    · split
      · exact stop _ (by decide)
      · exact stop _ hb₀
  | bad b rest hb hm ih =>
    rw [escapeRaw_bad hb hm, List.takeWhile_cons, List.takeWhile_cons, ih]

theorem multibyte_escapeRaw (b : UInt8) (rest : Bytes) :
    multibyte (b :: escapeRaw rest) = multibyte (b :: rest) := by
  rw [← Bytes.multibyte_takeWhile, takeWhile_escapeRaw, Bytes.multibyte_takeWhile]

theorem isHTML_false_of_simpleEscape (h : isSimpleEscape c = true) : isHTML c = false := by
  simp only [isSimpleEscape, Bool.or_eq_true, beq_iff_eq] at h
  rcases h with ((((((rfl | rfl) | rfl) | rfl) | rfl) | rfl) | rfl) | rfl <;> rfl

theorem isHTML_false_of_hexVal (h : hexVal a = some v) : isHTML a = false := by
  cases ha : isHTML a with
  | false => rfl
  | true =>
    simp only [isHTML, Bool.or_eq_true, beq_iff_eq] at ha
    rcases ha with (rfl | rfl) | rfl <;> cases h

theorem escapeRaw_simple (hc : isSimpleEscape c = true) (rest : Bytes) :
    escapeRaw (92 :: c :: rest) = [92, c] ++ escapeRaw rest := by
  rw [escapeRaw_ascii (by decide), escapeRaw_ascii (simpleEscape_isSome hc).1,
    isHTML_false_of_simpleEscape hc]
  rfl

theorem escapeRaw_hex (h : hex4 a₁ a₂ a₃ a₄ = some r) (rest : Bytes) :
    escapeRaw (92 :: 117 :: a₁ :: a₂ :: a₃ :: a₄ :: rest) =
      [92, 117, a₁, a₂, a₃, a₄] ++ escapeRaw rest := by
  simp only [hex4] at h
  split at h
  · rename_i h₁ h₂ h₃ h₄
    rw [escapeRaw_ascii (by decide), escapeRaw_ascii (by decide), escapeRaw_ascii (hexVal_ascii h₁),
      escapeRaw_ascii (hexVal_ascii h₂), escapeRaw_ascii (hexVal_ascii h₃),
      escapeRaw_ascii (hexVal_ascii h₄), isHTML_false_of_hexVal h₁, isHTML_false_of_hexVal h₂,
      isHTML_false_of_hexVal h₃, isHTML_false_of_hexVal h₄]
    rfl
  · cases h

/-- A raw text and its escaped copy have code units, which stand for the same bytes. -/
theorem codeUnits_escapeRaw (hraw : IsRaw raw) :
    IsRaw (escapeRaw raw) ∧ ∃ us us', codeUnits (segs raw) = some us ∧
      codeUnits (segs (escapeRaw raw)) = some us' ∧ List.Forall₂ CodeUnit.Same us us' ∧
      ∀ u ∈ us, u.Valid := by
  -- one more piece in front of both
  have cons : ∀ {w w' rest : Bytes} {u u' : CodeUnit}, Writes w u → u.Valid →
      Writes w' u' ∧ u.Same u' ∧ IsRaw w' →
      (IsRaw (escapeRaw rest) ∧ ∃ us us', codeUnits (segs rest) = some us ∧
        codeUnits (segs (escapeRaw rest)) = some us' ∧ List.Forall₂ CodeUnit.Same us us' ∧
        ∀ u ∈ us, u.Valid) →
      IsRaw (w' ++ escapeRaw rest) ∧ ∃ us us', codeUnits (segs (w ++ rest)) = some us ∧
        codeUnits (segs (w' ++ escapeRaw rest)) = some us' ∧ List.Forall₂ CodeUnit.Same us us' ∧
        ∀ u ∈ us, u.Valid := by
    rintro w w' rest u u' hw hvalid ⟨hw', hu, hraw'⟩ ⟨hrest, us, us', hus, hus', hsame, hvalids⟩
    exact ⟨hraw'.append hrest, u :: us, u' :: us', by rw [hw, hus]; rfl, by rw [hw', hus']; rfl,
      .cons hu hsame, by simpa using ⟨hvalid, hvalids⟩⟩
  have hpieces := hraw.pieces
  clear hraw
  induction hpieces with
  | nil => exact ⟨rfl, [], [], rfl, rfl, .nil, by simp⟩
  | plain b rest hb h34 h92 h32 _ ih =>
    have hw := writes_plain hb h34 h92 h32
    rw [escapeRaw_ascii hb]
    split
    · exact cons hw (isUtf8_ascii hb)
        ⟨escapeU00_writes b, same_bytes_code hb, isRaw_hex (hex4_u00 b)⟩ ih
    · exact cons hw (isUtf8_ascii hb) ⟨hw, .inl rfl, isRaw_plain h34 h92 h32⟩ ih
  | simple c rest hc _ ih =>
    obtain ⟨hascii, b, hb⟩ := simpleEscape_isSome hc
    have hw := writes_simple hascii hb
    rw [escapeRaw_simple hc]
    exact cons hw (isUtf8_ascii (simpleEscape_ascii hascii hb))
      ⟨hw, .inl rfl, isRaw_simple hc⟩ ih
  | hex a₁ a₂ a₃ a₄ r rest hr _ ih =>
    rw [escapeRaw_hex hr]
    exact cons (writes_hex hr) trivial ⟨writes_hex hr, .inl rfl, isRaw_hex hr⟩ ih
  | rune bs rest hbs _ ih =>
    obtain ⟨u, hu⟩ := escapeRune_writes hbs
    rw [escapeRaw_rune hbs]
    exact cons (writes_rune hbs) (Bytes.isUtf8_rune hbs) hu ih
  | bad b rest hb hm _ ih =>
    obtain ⟨hrest, us, us', hus, hus', hsame, hvalids⟩ := ih
    have hbad : IsRaw [b] := isRaw_not_ascii (by simpa using hb)
    have hrepl : CodeUnit.Valid (.bytes replacement) := rfl
    rw [escapeRaw_bad hb hm, segs_bad hb hm,
      segs_bad hb ((multibyte_escapeRaw b rest).trans hm)]
    exact ⟨hbad.append hrest, .bytes replacement :: us, .bytes replacement :: us',
      congrArg (Option.map _) hus, congrArg (Option.map _) hus', .cons (.inl rfl) hsame,
      by simpa using ⟨hrepl, hvalids⟩⟩

theorem isRaw_escapeRaw (h : IsRaw raw) : IsRaw (escapeRaw raw) := (codeUnits_escapeRaw h).1

theorem IsRaw.unquote_isSome (h : IsRaw raw) : (unquote raw).isSome := by
  obtain ⟨_, us, _, hus, _⟩ := codeUnits_escapeRaw h
  simp [unquote, hus]

/-- Escaping HTML in a literal does not change the string it stands for. -/
theorem unquote_escapeRaw (h : IsRaw raw) : unquote (escapeRaw raw) = unquote raw := by
  obtain ⟨_, us, us', hus, hus', hsame, _⟩ := codeUnits_escapeRaw h
  rw [unquote, unquote, hus, hus', Option.map_some, Option.map_some, decodeUnits_congr hsame]

theorem isUtf8_of_unquote (hraw : IsRaw raw) (h : unquote raw = some s) :
    isUtf8 s = true := by
  obtain ⟨_, us, _, hus, _, _, hvalid⟩ := codeUnits_escapeRaw hraw
  rw [unquote, hus] at h
  cases h
  exact isUtf8_decodeUnits hvalid

end Json
