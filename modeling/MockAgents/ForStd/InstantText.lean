import MockAgents.ForStd.Calendar

/-!
# The text of an instant

An instant in UTC in the layout `RFC3339Nano`, for any year: years before 0 have a sign, and
years after 9999 more than four digits. Texts are compared byte by byte. They are ordered as
their instants up to the seconds, if the years have four digits; but the fraction is written
without the zeros at its end and followed by `Z`, which comes after the point and the digits.
So where one fraction continues the other, the shorter and earlier one has the larger text.
-/

open Decimal (digit)
open List (compare_cons_cons cons_append mem_cons_self nil_append)
open Calendar

/-! ## Comparing texts -/

namespace Bytes

variable {a b : UInt8}

theorem compare_of_lt (h : a < b) : compare a b = .lt :=
  Std.compare_eq_lt.mpr h

theorem compare_of_gt (h : b < a) : compare a b = .gt :=
  Std.compare_eq_gt.mpr h

/-- Texts that end at a separator smaller than their bytes. -/
theorem compare_append_separator {sep : UInt8} {a b : Bytes} (ha : ∀ x ∈ a, sep < x)
    (hb : ∀ x ∈ b, sep < x) (s t : Bytes) :
    compare (a ++ sep :: s) (b ++ sep :: t) = (compare a b).then (compare s t) := by
  induction a generalizing b with
  | nil =>
    cases b with
    | nil => simp [compare_cons_cons]
    | cons y b =>
      simp only [nil_append, cons_append, compare_cons_cons,
        compare_of_lt (hb y (mem_cons_self ..)), List.compare_nil_cons]
      rfl
  | cons x a ih =>
    cases b with
    | nil =>
      simp only [nil_append, cons_append, compare_cons_cons,
        compare_of_gt (ha x (mem_cons_self ..)), List.compare_cons_nil]
      rfl
    | cons y b =>
      have ha' : ∀ z ∈ a, sep < z := fun z hz => ha z (List.mem_cons_of_mem x hz)
      have hb' : ∀ z ∈ b, sep < z := fun z hz => hb z (List.mem_cons_of_mem y hz)
      rw [cons_append, cons_append, compare_cons_cons, ih ha' hb',
        compare_cons_cons, Ordering.then_assoc]

end Bytes

namespace Decimal

theorem compare_digit {m n : Nat} (hm : m < 10) (hn : n < 10) :
    compare (digit m) (digit n) = compare m n := by
  have hlt : ∀ {a b : Nat}, a < 10 → b < 10 → a < b → digit a < digit b := fun ha hb h => by
    rw [UInt8.lt_iff_toNat_lt, toNat_digit ha, toNat_digit hb]
    omega
  rcases Nat.lt_trichotomy m n with h | rfl | h
  · rw [Bytes.compare_of_lt (hlt hm hn h), compare_lt_iff_lt.mpr h]
  · rw [Std.compare_self, Std.compare_self]
  · rw [Bytes.compare_of_gt (hlt hn hm h), compare_gt_iff_gt.mpr h]

theorem natValueFrom_lt {acc : Nat} {s : Bytes} (h : s.all Json.isDigit = true) :
    natValueFrom acc s < (acc + 1) * 10 ^ s.length := by
  induction s generalizing acc with
  | nil => simp [natValueFrom]
  | cons b s ih =>
    rw [List.all_cons, Bool.and_eq_true] at h
    have hdigit : b.toNat - 48 < 10 := by
      have hb := h.1
      simp only [Json.isDigit, decide_eq_true_eq] at hb
      omega
    calc natValueFrom (acc * 10 + (b.toNat - 48)) s
        _ < (acc * 10 + (b.toNat - 48) + 1) * 10 ^ s.length := ih h.2
        _ ≤ ((acc + 1) * 10) * 10 ^ s.length := Nat.mul_le_mul_right _ (by omega)
        _ = (acc + 1) * 10 ^ (b :: s).length := by
          rw [List.length_cons, Nat.pow_succ, Nat.mul_assoc, Nat.mul_comm 10]

theorem lt_pow_length_natText (n : Nat) : n < 10 ^ (natText n).length := by
  have hlt : natValueFrom 0 (natText n) < (0 + 1) * 10 ^ (natText n).length :=
    natValueFrom_lt (all_isDigit_natText n)
  rw [Nat.one_mul] at hlt
  calc n = natValue (natText n) := (natValue_natText n).symm
    _ < _ := hlt

end Decimal

namespace Time

variable {m n : Nat}

theorem compare_text2_append (hm : m < 100) (hn : n < 100) (s t : Bytes) :
    compare (text2 m ++ s) (text2 n ++ t) = (compare m n).then (compare s t) := by
  have hsplit : compare m n = (compare (m / 10) (n / 10)).then (compare (m % 10) (n % 10)) :=
    compare_eq_then (by omega) (by omega) fun _ => compare_eq_compare (by omega) (by omega)
      (by omega)
  simp only [text2, cons_append, nil_append, compare_cons_cons]
  rw [Decimal.compare_digit (by omega) (by omega), Decimal.compare_digit (by omega) (by omega),
    hsplit, Ordering.then_assoc]

variable {b : UInt8} {a : UInt8}

theorem isDigit_of_value2 (h : value2 a b = some n) : Json.isDigit a = true := by
  rw [value2, Decimal.parseNat] at h
  split at h
  · rename_i hdigits
    exact List.all_eq_true.mp hdigits.2 a (mem_cons_self ..)
  · cases h

variable {s : Bytes}

/-- A timestamp starts with four bytes, the first of which is a digit, and a dash. -/
theorem parse_shape {t : Time} (h : parse s = some t) :
    ∃ y₁ y₂ y₃ y₄ rest, s = y₁ :: y₂ :: y₃ :: y₄ :: 45 :: rest ∧ Json.isDigit y₁ = true := by
  unfold parse at h
  split at h
  · split at h
    · rename_i hcentury _ _ _ _ _ _
      exact ⟨_, _, _, _, _, rfl, isDigit_of_value2 hcentury⟩
    · cases h
  · cases h

/-! ## Fractions -/

/-- One text continues the other. -/
def Continues (s t : Bytes) : Prop := s ≠ t ∧ (s <+: t ∨ t <+: s)

instance (s t : Bytes) : Decidable (Continues s t) := inferInstanceAs (Decidable (_ ∧ _))

variable {t : Bytes}

theorem continues_cons : Continues (b :: s) (b :: t) ↔ Continues s t := by
  simp [Continues, List.cons_prefix_cons]

theorem continues_nil : Continues [] (b :: s) ∧ Continues (b :: s) [] := by
  simp [Continues]

theorem not_continues_of_ne (h : a ≠ b) : ¬ Continues (a :: s) (b :: t) := by
  simp [Continues, List.cons_prefix_cons, h, Ne.symm h]

theorem digit_lt_z (h : n < 10) : digit n < 90 := by
  rw [UInt8.lt_iff_toNat_lt, Decimal.toNat_digit h]
  exact Nat.lt_of_lt_of_le (show 48 + n < 58 by omega) (by decide)

/-- The order of fractions is reversed where one continues the other. -/
theorem compare_fracText {w : Nat} (hm : m < 10 ^ w) (hn : n < 10 ^ w) :
    compare (fracText w m ++ [90]) (fracText w n ++ [90]) =
      if Continues (fracText w m) (fracText w n) then (compare m n).swap else compare m n := by
  induction w generalizing m n with
  | zero =>
    have hzero : m = n := by
      simp at hm hn
      omega
    subst hzero
    simp [Continues]
  | succ w ih =>
    have hm' := div_pow_lt hm
    have hn' := div_pow_lt hn
    have hpos : 0 < 10 ^ w := Nat.pow_pos (by omega)
    rw [fracText, fracText]
    split <;> split
    · rename_i hm₀ hn₀
      simp [Continues, hm₀, hn₀]
    · rw [compare_lt_iff_lt.mpr (show m < n by omega)]
      simp only [nil_append, cons_append, compare_cons_cons,
        Bytes.compare_of_gt (digit_lt_z hn')]
      rfl
    · rename_i hm₀ hn₀
      rw [if_pos continues_nil.2, compare_gt_iff_gt.mpr (show n < m by omega)]
      simp only [nil_append, cons_append, compare_cons_cons,
        Bytes.compare_of_lt (digit_lt_z hm')]
      rfl
    · rw [cons_append, cons_append, compare_cons_cons,
        Decimal.compare_digit hm' hn', compare_div_mod hpos m n]
      by_cases hdigit : m / 10 ^ w = n / 10 ^ w
      · rw [hdigit, Std.compare_self, Ordering.eq_then, Ordering.eq_then,
          ih (Nat.mod_lt _ hpos) (Nat.mod_lt _ hpos)]
        simp [continues_cons]
      · -- the first digit decides
        have hne : digit (m / 10 ^ w) ≠ digit (n / 10 ^ w) := by
          intro h
          have hnat := congrArg UInt8.toNat h
          rw [Decimal.toNat_digit hm', Decimal.toNat_digit hn'] at hnat
          omega
        rw [if_neg (not_continues_of_ne hne)]
        exact Ordering.then_congr fun h => absurd (compare_eq_iff_eq.mp h) hdigit

theorem compare_nanosText (hm : m < 10 ^ 9) (hn : n < 10 ^ 9) :
    compare (nanosText m ++ [90]) (nanosText n ++ [90]) =
      if Continues (nanosText m) (nanosText n) then (compare m n).swap else compare m n := by
  have hpoint : compare (46 : UInt8) 90 = .lt := by decide
  rw [nanosText, nanosText]
  split <;> split
  · rename_i hm₀ hn₀
    simp [Continues, hm₀, hn₀]
  · rw [if_pos continues_nil.1, compare_lt_iff_lt.mpr (show m < n by omega)]
    rfl
  · rw [if_pos continues_nil.2, compare_gt_iff_gt.mpr (show n < m by omega)]
    simp only [nil_append, cons_append, compare_cons_cons, hpoint]
    rfl
  · rw [cons_append, cons_append, compare_cons_cons, Std.compare_self,
      compare_fracText hm hn]
    simp [continues_cons]

end Time

/-! ## Years -/

def yearDigits (n : Nat) : Bytes :=
  if n < 10000 then Time.text2 (n / 100) ++ Time.text2 (n % 100) else Decimal.natText n

/-- A year as `appendInt` writes it. -/
def yearText (y : Int) : Bytes :=
  if y < 0 then 45 :: yearDigits y.natAbs else yearDigits y.natAbs

theorem isDigit_yearDigits (n : Nat) : ∀ b ∈ yearDigits n, Json.isDigit b = true := by
  intro b hb
  rw [yearDigits] at hb
  split at hb
  · simp only [Time.text2, List.mem_append, List.mem_cons, List.not_mem_nil, or_false] at hb
    rcases hb with (rfl | rfl) | (rfl | rfl) <;> exact Decimal.isDigit_digit (by omega)
  · exact List.all_eq_true.mp (Decimal.all_isDigit_natText n) b hb

theorem dash_lt_yearDigits (n : Nat) : ∀ b ∈ yearDigits n, 45 < b := by
  intro b hb
  have hdigit := isDigit_yearDigits n b hb
  simp only [Json.isDigit, decide_eq_true_eq] at hdigit
  exact Nat.lt_of_lt_of_le (by decide) hdigit.1

theorem yearDigits_cons (n : Nat) : ∃ b s, yearDigits n = b :: s ∧ 45 < b := by
  cases h : yearDigits n with
  | nil =>
    rw [yearDigits] at h
    split at h
    · cases h
    · obtain ⟨b, l, hcons, _⟩ := Decimal.natText_head n
      exact nomatch h.symm.trans hcons
  | cons b s => exact ⟨b, s, rfl, dash_lt_yearDigits n b (h ▸ mem_cons_self ..)⟩

theorem natValue_yearDigits (n : Nat) : Decimal.natValue (yearDigits n) = n := by
  rw [yearDigits]
  split
  · have h₁ : n / 100 / 10 < 10 := by omega
    have h₂ : n / 100 % 10 < 10 := by omega
    have h₃ : n % 100 / 10 < 10 := by omega
    have h₄ : n % 100 % 10 < 10 := by omega
    simp only [Time.text2, Decimal.natValue, Decimal.natValueFrom, cons_append,
      nil_append, List.foldl_cons, List.foldl_nil, Decimal.toNat_digit h₁,
      Decimal.toNat_digit h₂, Decimal.toNat_digit h₃, Decimal.toNat_digit h₄]
    omega
  · exact Decimal.natValue_natText n

theorem yearDigits_inj {m n : Nat} (h : yearDigits m = yearDigits n) : m = n := by
  rw [← natValue_yearDigits m, ← natValue_yearDigits n, h]

theorem yearText_inj {a b : Int} (h : yearText a = yearText b) : a = b := by
  obtain ⟨c, s, hc, hdash⟩ := yearDigits_cons a.natAbs
  obtain ⟨d, u, hd, hdash'⟩ := yearDigits_cons b.natAbs
  rw [yearText, yearText] at h
  split at h <;> split at h
  · have habs := yearDigits_inj (List.cons.inj h).2
    omega
  · rw [hd] at h
    exact absurd (List.cons.inj h).1 (UInt8.ne_of_lt hdash')
  · rw [hc] at h
    exact absurd (List.cons.inj h).1.symm (UInt8.ne_of_lt hdash)
  · have habs := yearDigits_inj h
    omega

/-- The year decides, unless it is the same. -/
theorem compare_yearText_append (a b : Int) (s t : Bytes) :
    compare (yearText a ++ 45 :: s) (yearText b ++ 45 :: t) =
      (compare (yearText a) (yearText b)).then (compare s t) := by
  have hdigits := Bytes.compare_append_separator (dash_lt_yearDigits a.natAbs)
    (dash_lt_yearDigits b.natAbs) s t
  obtain ⟨c, u, hc, hdash⟩ := yearDigits_cons a.natAbs
  obtain ⟨d, v, hd, hdash'⟩ := yearDigits_cons b.natAbs
  rw [yearText, yearText]
  split <;> split
  · simp [hdigits]
  · simp only [hd, cons_append, compare_cons_cons, Bytes.compare_of_lt hdash']
    rfl
  · simp only [hc, cons_append, compare_cons_cons, Bytes.compare_of_gt hdash]
    rfl
  · exact hdigits

/-! ## Instants -/

namespace Instant

/-- `UTC().Format(time.RFC3339Nano)`. -/
def text (t : Instant) : Bytes :=
  yearText t.year ++ 45 :: (Time.text2 t.month ++ 45 :: (Time.text2 t.day ++
    84 :: (Time.text2 t.hour ++ 58 :: (Time.text2 t.minute ++ 58 :: (Time.text2 t.second ++
      (Time.nanosText t.nanos ++ [90]))))))

variable (t : Instant)

theorem yday_lt : t.yday < (monthLengths (isLeap t.year)).sum := by
  obtain ⟨hle, hlt⟩ := yearOf_spec t.days
  rw [yearStart_succ] at hlt
  rw [yday, year]
  cases hleap : isLeap (yearOf t.days + 1) with
  | true =>
    have hsum : (monthLengths true).sum = 366 := rfl
    omega
  | false =>
    have hsum : (monthLengths false).sum = 365 := rfl
    rw [hleap, if_neg (by decide)] at hlt
    omega

theorem day_spec :
    ∃ len, (monthLengths (isLeap t.year))[t.month - 1]? = some len ∧ 1 ≤ t.day ∧ t.day ≤ len ∧
      ((monthLengths (isLeap t.year)).take (t.month - 1)).sum + t.day = t.yday + 1 :=
  splitDay_spec t.yday_lt

theorem month_le : 1 ≤ t.month ∧ t.month ≤ 12 := by
  obtain ⟨len, hlen, _⟩ := t.day_spec
  have hlt := (List.getElem?_eq_some_iff.mp hlen).1
  have hle : 1 ≤ t.month := le_splitDay _ 1 _
  have hlength : (monthLengths (isLeap t.year)).length = 12 := rfl
  omega

theorem day_le : t.day ≤ 31 := by
  obtain ⟨len, hlen, _, hle, _⟩ := t.day_spec
  have hall : ∀ leap, ∀ len ∈ monthLengths leap, len ≤ 31 := by decide
  exact Nat.le_trans hle (hall _ len (List.mem_of_getElem? hlen))

theorem time_le : t.hour ≤ 23 ∧ t.minute ≤ 59 ∧ t.second ≤ 59 := by
  rw [hour, minute, second, secOfDay]
  omega

variable (a b : Instant)

theorem compare_text :
    compare a.text b.text = (compare (yearText a.year) (yearText b.year)).then
      ((compareInYear a b).then
        (if Time.Continues (Time.nanosText a.nanos) (Time.nanosText b.nanos) then
          (compare a.nanos b.nanos).swap else compare a.nanos b.nanos)) := by
  have ha := a.month_le
  have hb := b.month_le
  have ha' := a.day_le
  have hb' := b.day_le
  have ha'' := a.time_le
  have hb'' := b.time_le
  have hskip : ∀ (c : UInt8) (s t : Bytes), compare (c :: s) (c :: t) = compare s t :=
    fun c s t => by rw [compare_cons_cons, Std.compare_self, Ordering.eq_then]
  rw [text, text, compare_yearText_append, Time.compare_text2_append (by omega) (by omega), hskip,
    Time.compare_text2_append (by omega) (by omega), hskip,
    Time.compare_text2_append (by omega) (by omega), hskip,
    Time.compare_text2_append (by omega) (by omega), hskip,
    Time.compare_text2_append (by omega) (by omega),
    Time.compare_nanosText a.nanos_lt b.nanos_lt, compareInYear]
  simp [Ordering.then_assoc]

/-- The texts of two instants are in the order of time: their years are, and if only their
    fractions differ, neither fraction continues the other. -/
structure TextOrdered (a b : Instant) : Prop where
  years : compare (yearText a.year) (yearText b.year) = compare a.year b.year
  fractions : a.sec = b.sec →
    ¬ Time.Continues (Time.nanosText a.nanos) (Time.nanosText b.nanos)

theorem compare_text_iff : compare a.text b.text = compare a b ↔ TextOrdered a b := by
  have hcompare : compare a b = (compare a.sec b.sec).then (compare a.nanos b.nanos) := rfl
  have hsec := compare_sec a b
  rw [compare_text, hcompare, hsec]
  by_cases hyear : a.year = b.year
  · -- only the fractions can be out of order
    rw [hyear, Std.compare_self, Std.compare_self, Ordering.eq_then]
    rw [hyear, Std.compare_self, Ordering.eq_then] at hsec
    have hyears : compare (yearText a.year) (yearText b.year) = compare a.year b.year := by
      rw [hyear, Std.compare_self, Std.compare_self]
    by_cases hsame : a.sec = b.sec
    · rw [← hsec, hsame, Std.compare_self, Ordering.eq_then, Ordering.eq_then]
      split
      · rename_i hcont
        refine ⟨fun h => absurd h ?_, fun h => absurd hcont (h.fractions hsame)⟩
        -- the fractions differ, so their order is not its own reverse
        have hne : compare a.nanos b.nanos ≠ .eq := fun h =>
          hcont.1 (congrArg Time.nanosText (compare_eq_iff_eq.mp h))
        revert hne
        cases compare a.nanos b.nanos <;> decide
      · rename_i hcont
        exact ⟨fun _ => ⟨hyears, fun _ => hcont⟩, fun _ => rfl⟩
    · refine ⟨fun _ => ⟨hyears, fun h => absurd h hsame⟩, fun _ => Ordering.then_congr fun h => ?_⟩
      rw [h] at hsec
      exact absurd (compare_eq_iff_eq.mp hsec) hsame
  · -- the years decide
    have hne : compare a.year b.year ≠ .eq := fun h => hyear (compare_eq_iff_eq.mp h)
    have hne' : compare (yearText a.year) (yearText b.year) ≠ .eq := fun h =>
      hyear (yearText_inj (Std.LawfulEqCmp.compare_eq_iff_eq.mp h))
    have habsorb : ∀ {o p : Ordering}, o ≠ .eq → o.then p = o := fun {o p} h => by
      cases o <;> first | rfl | exact absurd rfl h
    rw [habsorb hne, habsorb hne, habsorb hne']
    refine ⟨fun h => ⟨h, fun hsame => ?_⟩, fun h => h.years⟩
    rw [hsame, Std.compare_self, habsorb hne] at hsec
    exact absurd hsec.symm hne

theorem eq_of_compare {a b : Instant} (h : compare a b = .eq) : a = b := by
  obtain ⟨hsec, hnanos⟩ := Ordering.then_eq_eq.mp h
  obtain ⟨sec, nanos, _⟩ := a
  obtain ⟨sec', nanos', _⟩ := b
  obtain rfl : sec = sec' := compare_eq_iff_eq.mp hsec
  obtain rfl : nanos = nanos' := compare_eq_iff_eq.mp hnanos
  rfl

theorem compare_text_eq_iff : compare a.text b.text = .eq ↔ compare a b = .eq := by
  constructor
  · intro h
    rw [compare_text, Ordering.then_eq_eq, Ordering.then_eq_eq] at h
    obtain ⟨hyears, hdate, hnanos⟩ := h
    have hyear : a.year = b.year := yearText_inj (Std.LawfulEqCmp.compare_eq_iff_eq.mp hyears)
    have hnanos' : compare a.nanos b.nanos = .eq := by
      split at hnanos
      · exact Ordering.swap_eq_eq.mp hnanos
      · exact hnanos
    show (compare a.sec b.sec).then (compare a.nanos b.nanos) = .eq
    rw [compare_sec, hyear, Std.compare_self, hdate, hnanos']
    rfl
  · intro h
    rw [eq_of_compare h, Std.compare_self]

/-- A comparison of texts with `>=` gives the order of time. -/
theorem isGE_compare_text_iff :
    (compare a.text b.text).isGE = (compare a b).isGE ↔ TextOrdered a b := by
  have heq := compare_text_eq_iff a b
  rw [← compare_text_iff]
  revert heq
  cases compare a.text b.text <;> cases compare a b <;> decide

end Instant

/-! ## Reading an instant -/

/-- The seconds of a date and a time of day in UTC. -/
def Clock.sec (c : Clock) : Int :=
  86400 * (yearStart (c.year - 1) + ((monthLengths (isLeap c.year)).take (c.month - 1)).sum +
    (c.day - 1)) + 3600 * c.hour + 60 * c.minute + c.second

/-- The seconds that the clocks of a zone are ahead of UTC. -/
def Zone.sec : Zone → Int
  | .utc => 0
  | .offset west hours minutes =>
    (if west then -1 else 1) * (3600 * (hours : Nat) + 60 * (minutes : Nat))

theorem Clock.nanos_lt {c : Clock} (h : c.isValid = true) : c.nanos < 10 ^ 9 := by
  simp only [Clock.isValid, decide_eq_true_eq] at h
  exact h.2.2.2.2.2.2.2.2

def Time.instant (t : Time) : Instant :=
  ⟨t.clock.sec - t.zone.sec, t.clock.nanos, Clock.nanos_lt t.valid⟩

theorem monthLengths_eq_daysIn (year : Nat) {m : Nat} (h : m < 12) :
    (monthLengths (isLeap year))[m]? = some (daysIn year (m + 1)) := by
  have hleap : isLeap year = decide (year % 4 = 0 ∧ (year % 100 ≠ 0 ∨ year % 400 = 0)) := by
    rw [isLeap, decide_eq_decide]
    omega
  by_cases hm : m = 1
  · rw [hm, hleap]
    simp [monthLengths, daysIn]
  · have hcases : m = 0 ∨ m = 2 ∨ m = 3 ∨ m = 4 ∨ m = 5 ∨ m = 6 ∨ m = 7 ∨ m = 8 ∨ m = 9 ∨
        m = 10 ∨ m = 11 := by
      omega
    rcases hcases with rfl | rfl | rfl | rfl | rfl | rfl | rfl | rfl | rfl | rfl | rfl <;>
      simp [monthLengths, daysIn]

namespace Instant

/-- The date and the time of day in UTC. -/
def clock (t : Instant) : Clock :=
  ⟨t.year.toNat, t.month, t.day, t.hour, t.minute, t.second, t.nanos⟩

variable {t : Instant}

section

variable (h : 0 ≤ t.year ∧ t.year ≤ 9999)
include h

theorem isValid_clock : t.clock.isValid = true := by
  obtain ⟨hmonth, hmonth'⟩ := t.month_le
  obtain ⟨hhour, hminute, hsecond⟩ := t.time_le
  obtain ⟨len, hlen, hday, hday', _⟩ := t.day_spec
  have hyear : t.year = (t.year.toNat : Int) := by omega
  rw [hyear, monthLengths_eq_daysIn _ (by omega), Nat.sub_add_cancel hmonth] at hlen
  cases hlen
  have hle : t.year.toNat ≤ 9999 := by omega
  rw [Clock.isValid, decide_eq_true_eq]
  exact ⟨hle, hmonth, hmonth', hday, hday', hhour, hminute, hsecond, t.nanos_lt⟩

theorem text_eq_format : t.text = Time.format ⟨t.clock, .utc, isValid_clock h⟩ := by
  have habs : t.year.natAbs = t.year.toNat := by omega
  rw [text, yearText, if_neg (by omega), yearDigits, if_pos (by omega), habs]
  simp [Time.format, Time.secondsText, Time.zoneText, clock]

theorem instant_clock : Time.instant ⟨t.clock, .utc, isValid_clock h⟩ = t := by
  have hsec : t.clock.sec = t.sec := by
    obtain ⟨_, _, hday, _, hsum⟩ := t.day_spec
    have hyear : ((t.year.toNat : Nat) : Int) = t.year := by omega
    have hstart := (yearOf_spec t.days).1
    have hdays : t.year - 1 = yearOf t.days := by
      rw [year]
      omega
    have hyday : (t.yday : Int) = t.days - yearStart (yearOf t.days) := by
      rw [yday]
      omega
    have hclock : 3600 * (t.hour : Int) + 60 * t.minute + t.second = t.secOfDay := by
      rw [hour, minute, second, secOfDay]
      omega
    have hsplit : 86400 * t.days + t.secOfDay = t.sec := Int.mul_ediv_add_emod t.sec 86400
    simp only [Clock.sec, clock, hyear, hdays]
    omega
  simp only [Time.instant, Zone.sec, Int.sub_zero, hsec]
  rfl

/-- A text with a year of four digits is read back. -/
theorem parse_text : (Time.parse t.text).map Time.instant = some t := by
  rw [text_eq_format h, Time.parse_format, Option.map_some, instant_clock h]

end

theorem parse_text_eq_none (h : ¬ (0 ≤ t.year ∧ t.year ≤ 9999)) : Time.parse t.text = none := by
  rw [Option.eq_none_iff_forall_ne_some]
  intro time htime
  obtain ⟨y₁, y₂, y₃, y₄, rest, hshape, hdigit⟩ := Time.parse_shape htime
  rw [text, yearText] at hshape
  split at hshape
  · obtain rfl := (List.cons.inj hshape).1
    exact absurd hdigit (by decide)
  · -- the fifth byte is a digit
    have hlength := Decimal.lt_pow_length_natText t.year.natAbs
    have hdigits := Decimal.all_isDigit_natText t.year.natAbs
    rw [yearDigits, if_neg (by omega)] at hshape
    have hfive : 5 ≤ (Decimal.natText t.year.natAbs).length := by
      by_contra hlt
      have hpow := Nat.pow_le_pow_right (show 0 < 10 by decide)
        (show (Decimal.natText t.year.natAbs).length ≤ 4 by omega)
      omega
    have hget := congrArg (·[4]?) hshape
    simp only [List.getElem?_append_left hfive, List.getElem?_cons_succ,
      List.getElem?_cons_zero] at hget
    have hdash := List.all_eq_true.mp hdigits 45 (List.mem_of_getElem? hget)
    exact absurd hdash (by decide)

end Instant

