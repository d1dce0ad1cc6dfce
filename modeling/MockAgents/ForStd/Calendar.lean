import Mathlib.Data.Int.Order.Basic
import Mathlib.Data.Nat.Basic
import Mathlib.Order.Compare
import Mathlib.Order.Lattice
import MockAgents.ForStd.Rfc3339

/-!
# Instants and the calendar

An instant as seconds and nanoseconds since the start of year 1, and its date and time of day in
UTC. Days are counted with 400-year cycles; a date is found in a cycle by its centuries, its
4-year groups and its years, as `absDate` does.
-/

/-! ## Years -/

namespace Calendar

/-- The days before year `y + 1`, counted from the start of year 1. -/
def yearStart (y : Int) : Int := 365 * y + y / 4 - y / 100 + y / 400

/-- A year number in its 400-year cycle: centuries, 4-year groups and single years. -/
theorem yearStart_cycle (era : Int) {century group year : Int} (hc : 0 ≤ century ∧ century ≤ 3)
    (hg : 0 ≤ group ∧ group ≤ 24) (hy : 0 ≤ year ∧ year ≤ 3) :
    yearStart (400 * era + 100 * century + 4 * group + year) =
      146097 * era + 36524 * century + 1461 * group + 365 * year := by
  have h₄ : (400 * era + 100 * century + 4 * group + year) / 4 =
      100 * era + 25 * century + group := by omega
  have h₄₀₀ : (400 * era + 100 * century + 4 * group + year) / 400 = era := by omega
  rw [yearStart, h₄, h₄₀₀]
  omega

theorem yearStart_mono {a b : Int} (h : a ≤ b) : yearStart a ≤ yearStart b := by
  rw [yearStart, yearStart]
  omega

/-- The year of a day, less one. -/
def yearOf (d : Int) : Int :=
  let r := d % 146097
  let century := min (r / 36524) 3
  let r₁ := r - 36524 * century
  let group := r₁ / 1461
  let r₂ := r₁ - 1461 * group
  400 * (d / 146097) + 100 * century + 4 * group + min (r₂ / 365) 3

theorem yearStart_cycle_succ (era : Int) {century group year : Int} (hc : 0 ≤ century ∧ century ≤ 3)
    (hg : 0 ≤ group ∧ group ≤ 24) (hy : 0 ≤ year ∧ year ≤ 3) {r : Int}
    (hr : r < 365 ∨ (year = 3 ∧ (group = 24 → century = 3) ∧ r < 366)) :
    146097 * era + 36524 * century + 1461 * group + 365 * year + r <
      yearStart (400 * era + 100 * century + 4 * group + year + 1) := by
  have hzero : (0 : Int) ≤ 0 ∧ (0 : Int) ≤ 3 := by decide
  have hzero₂₄ : (0 : Int) ≤ 0 ∧ (0 : Int) ≤ 24 := by decide
  by_cases hyear : year < 3
  · have hnext := yearStart_cycle era hc hg (show 0 ≤ year + 1 ∧ year + 1 ≤ 3 by omega)
    rw [Int.add_assoc _ year 1]
    omega
  · obtain rfl : year = 3 := by omega
    by_cases hgroup : group < 24
    · have hnext := yearStart_cycle era hc (show 0 ≤ group + 1 ∧ group + 1 ≤ 24 by omega) hzero
      rw [show 400 * era + 100 * century + 4 * group + 3 + 1 =
        400 * era + 100 * century + 4 * (group + 1) + 0 by omega, hnext]
      omega
    · obtain rfl : group = 24 := by omega
      by_cases hcentury : century < 3
      · have hnext := yearStart_cycle era (show 0 ≤ century + 1 ∧ century + 1 ≤ 3 by omega) hzero₂₄
          hzero
        rw [show 400 * era + 100 * century + 4 * 24 + 3 + 1 =
          400 * era + 100 * (century + 1) + 4 * 0 + 0 by omega, hnext]
        omega
      · obtain rfl : century = 3 := by omega
        have hnext := yearStart_cycle (era + 1) hzero hzero₂₄ hzero
        rw [show 400 * era + 100 * 3 + 4 * 24 + 3 + 1 =
          400 * (era + 1) + 100 * 0 + 4 * 0 + 0 by omega, hnext]
        omega

/-- A day is in its year. -/
theorem yearOf_spec (d : Int) : yearStart (yearOf d) ≤ d ∧ d < yearStart (yearOf d + 1) := by
  obtain ⟨era, hera⟩ : ∃ era, era = d / 146097 := ⟨_, rfl⟩
  obtain ⟨r, hr⟩ : ∃ r, r = d % 146097 := ⟨_, rfl⟩
  obtain ⟨century, hcentury⟩ : ∃ century, century = min (r / 36524) 3 := ⟨_, rfl⟩
  obtain ⟨r₁, hr₁⟩ : ∃ r₁, r₁ = r - 36524 * century := ⟨_, rfl⟩
  obtain ⟨group, hgroup⟩ : ∃ group, group = r₁ / 1461 := ⟨_, rfl⟩
  obtain ⟨r₂, hr₂⟩ : ∃ r₂, r₂ = r₁ - 1461 * group := ⟨_, rfl⟩
  obtain ⟨year, hyear⟩ : ∃ year, year = min (r₂ / 365) 3 := ⟨_, rfl⟩
  have hyearOf : yearOf d = 400 * era + 100 * century + 4 * group + year := by
    rw [hyear, hr₂, hgroup, hr₁, hcentury, hr, hera]
    rfl
  have hd : d = 146097 * era + r ∧ 0 ≤ r ∧ r < 146097 := by omega
  clear hera hr
  -- only the last century of a cycle has a day more
  have hc : (0 ≤ century ∧ century ≤ 3) ∧ 0 ≤ r₁ ∧ (r₁ < 36524 ∨ (century = 3 ∧ r₁ < 36525)) := by
    omega
  clear hcentury
  have hg : (0 ≤ group ∧ group ≤ 24) ∧ 0 ≤ r₂ ∧
      (r₂ < 1460 ∨ ((group = 24 → century = 3) ∧ r₂ < 1461)) := by
    clear hyear hyearOf hd hr₁
    omega
  clear hgroup
  -- and only the last year of a group
  have hy : (0 ≤ year ∧ year ≤ 3) ∧ 0 ≤ r₂ - 365 * year ∧ (r₂ - 365 * year < 365 ∨
      (year = 3 ∧ (group = 24 → century = 3) ∧ r₂ - 365 * year < 366)) := by
    clear hyearOf hd hr₁ hr₂ hc
    omega
  have hstart := yearStart_cycle era hc.1 hg.1 hy.1
  have hnext := yearStart_cycle_succ era hc.1 hg.1 hy.1 hy.2.2
  rw [hyearOf]
  omega

/-! ## Months -/

def isLeap (year : Int) : Bool := decide (year % 4 = 0 ∧ (year % 100 ≠ 0 ∨ year % 400 = 0))

theorem yearStart_succ (y : Int) :
    yearStart (y + 1) = yearStart y + (if isLeap (y + 1) then 366 else 365) := by
  have h₄ : (y + 1) / 4 = y / 4 + (if (y + 1) % 4 = 0 then 1 else 0) := by split <;> omega
  have h₁₀₀ : (y + 1) / 100 = y / 100 + (if (y + 1) % 100 = 0 then 1 else 0) := by
    split <;> omega
  have h₄₀₀ : (y + 1) / 400 = y / 400 + (if (y + 1) % 400 = 0 then 1 else 0) := by
    split <;> omega
  simp only [yearStart, h₄, h₁₀₀, h₄₀₀, isLeap, decide_eq_true_eq]
  generalize (y + 1) % 4 = m₄ at *
  generalize (y + 1) % 100 = m₁₀₀ at *
  generalize (y + 1) % 400 = m₄₀₀ at *
  split <;> split <;> split <;> split <;> omega

def monthLengths (leap : Bool) : List Nat :=
  [31, if leap then 29 else 28, 31, 30, 31, 30, 31, 31, 30, 31, 30, 31]

/-- The month and the day of the month of the day `yday` of a year, from month `m` on. -/
def splitDay : List Nat → (m yday : Nat) → Nat × Nat
  | [], m, yday => (m, yday + 1)
  | len :: lens, m, yday => if yday < len then (m, yday + 1) else splitDay lens (m + 1) (yday - len)

theorem le_splitDay (lens : List Nat) (m yday : Nat) : m ≤ (splitDay lens m yday).1 := by
  induction lens generalizing m yday with
  | nil => exact Nat.le_refl _
  | cons len lens ih =>
    rw [splitDay]
    split
    · exact Nat.le_refl _
    · exact Nat.le_of_succ_le (ih (m + 1) (yday - len))

theorem splitDay_spec {lens : List Nat} {m yday : Nat} (h : yday < lens.sum) :
    ∃ len, lens[(splitDay lens m yday).1 - m]? = some len ∧ 1 ≤ (splitDay lens m yday).2 ∧
      (splitDay lens m yday).2 ≤ len ∧
      (lens.take ((splitDay lens m yday).1 - m)).sum + (splitDay lens m yday).2 = yday + 1 := by
  induction lens generalizing m yday with
  | nil => simp at h
  | cons len lens ih =>
    rw [splitDay]
    split
    · rename_i hlt
      exact ⟨len, by simp, by simp, hlt, by simp⟩
    · rw [List.sum_cons] at h
      have hrest : yday - len < lens.sum := by omega
      obtain ⟨len', hlen', hday, hle, hsum⟩ := ih (m := m + 1) hrest
      have hm := le_splitDay lens (m + 1) (yday - len)
      obtain ⟨k, hk⟩ : ∃ k, (splitDay lens (m + 1) (yday - len)).1 - m = k + 1 :=
        ⟨_, (Nat.succ_pred_eq_of_pos (by omega)).symm⟩
      have hk' : (splitDay lens (m + 1) (yday - len)).1 - (m + 1) = k := by omega
      rw [hk'] at hlen' hsum
      refine ⟨len', ?_, hday, hle, ?_⟩
      · rw [hk, List.getElem?_cons_succ, hlen']
      · rw [hk, List.take_succ_cons, List.sum_cons]
        omega

end Calendar

/-! ## Comparisons -/

/-- Values that are ordered by a first part, and by `o` where these are equal. -/
theorem compare_eq_then {α β : Type} [LinearOrder α] [LinearOrder β] {a b : α} {p q : β}
    {o : Ordering} (hlt : p < q → a < b) (hgt : q < p → b < a) (heq : p = q → compare a b = o) :
    compare a b = (compare p q).then o := by
  rcases lt_trichotomy p q with h | h | h
  · rw [compare_lt_iff_lt.mpr h, compare_lt_iff_lt.mpr (hlt h)]
    rfl
  · rw [compare_eq_iff_eq.mpr h, heq h]
    rfl
  · rw [compare_gt_iff_gt.mpr h, compare_gt_iff_gt.mpr (hgt h)]
    rfl

theorem compare_eq_compare {α β : Type} [LinearOrder α] [LinearOrder β] {a b : α} {p q : β}
    (hlt : p < q → a < b) (hgt : q < p → b < a) (heq : p = q → a = b) :
    compare a b = compare p q := by
  rw [compare_eq_then hlt hgt fun h => compare_eq_iff_eq.mpr (heq h), Ordering.then_eq]

theorem compare_toNat {a b : Int} (ha : 0 ≤ a) (hb : 0 ≤ b) :
    compare a b = compare a.toNat b.toNat :=
  compare_eq_compare (by omega) (by omega) (by omega)

theorem Ordering.then_congr {o p q : Ordering} (h : o = .eq → p = q) : o.then p = o.then q := by
  cases o with
  | eq => exact h rfl
  | lt | gt => rfl

theorem compare_ediv_emod {n : Int} (hn : 0 < n) (a b : Int) :
    compare a b = (compare (a / n) (b / n)).then (compare (a % n) (b % n)) := by
  have ha := Int.mul_ediv_add_emod a n
  have hb := Int.mul_ediv_add_emod b n
  have ha₀ := Int.emod_nonneg a (Int.ne_of_gt hn)
  have hb₀ := Int.emod_nonneg b (Int.ne_of_gt hn)
  have ha₁ := Int.emod_lt_of_pos a hn
  have hb₁ := Int.emod_lt_of_pos b hn
  -- a larger quotient is worth more than any remainder
  have hquot : ∀ {p q : Int}, p < q → n * p + n ≤ n * q := fun {p q} h => by
    have := Int.mul_le_mul_of_nonneg_left (Int.add_one_le_of_lt h) (Int.le_of_lt hn)
    rwa [Int.mul_add, Int.mul_one] at this
  refine compare_eq_then (fun h => ?_) (fun h => ?_) fun h => ?_
  · have := hquot h
    omega
  · have := hquot h
    omega
  · rw [h] at ha
    exact compare_eq_compare (by omega) (by omega) (by omega)

theorem compare_div_mod {n : Nat} (hn : 0 < n) (a b : Nat) :
    compare a b = (compare (a / n) (b / n)).then (compare (a % n) (b % n)) := by
  have hcast : ∀ p q : Nat, compare (p : Int) (q : Int) = compare p q := fun p q =>
    compare_eq_compare (by omega) (by omega) (by omega)
  have hint := compare_ediv_emod (show (0 : Int) < n by omega) a b
  rwa [← Int.natCast_ediv, ← Int.natCast_ediv, ← Int.natCast_emod, ← Int.natCast_emod, hcast,
    hcast, hcast] at hint

namespace Calendar

theorem compare_splitDay (lens : List Nat) (m a b : Nat) :
    compare a b = (compare (splitDay lens m a).1 (splitDay lens m b).1).then
      (compare (splitDay lens m a).2 (splitDay lens m b).2) := by
  have hself : ∀ {m : Nat}, compare m m = .eq := compare_eq_iff_eq.mpr rfl
  have hsucc : ∀ {a b : Nat}, compare a b = compare (a + 1) (b + 1) := fun {a b} =>
    compare_eq_compare (by omega) (by omega) (by omega)
  induction lens generalizing m a b with
  | nil =>
    simp only [splitDay, hself]
    exact hsucc
  | cons len lens ih =>
    have ha := le_splitDay lens (m + 1) (a - len)
    have hb := le_splitDay lens (m + 1) (b - len)
    rw [splitDay, splitDay]
    split <;> split
    · simp only [hself]
      exact hsucc
    · rw [compare_lt_iff_lt.mpr (show a < b by omega), compare_lt_iff_lt.mpr (by simp only; omega)]
      rfl
    · rw [compare_gt_iff_gt.mpr (show b < a by omega), compare_gt_iff_gt.mpr (by simp only; omega)]
      rfl
    · rw [← ih (m + 1)]
      exact compare_eq_compare (by omega) (by omega) (by omega)

theorem compare_yearOf (a b : Int) :
    compare a b = (compare (yearOf a) (yearOf b)).then
      (compare (a - yearStart (yearOf a)) (b - yearStart (yearOf b))) := by
  obtain ⟨ha, ha'⟩ := yearOf_spec a
  obtain ⟨hb, hb'⟩ := yearOf_spec b
  refine compare_eq_then (fun h => ?_) (fun h => ?_) fun h => ?_
  · have := yearStart_mono (Int.add_one_le_of_lt h)
    omega
  · have := yearStart_mono (Int.add_one_le_of_lt h)
    omega
  · rw [h]
    exact compare_eq_compare (by omega) (by omega) (by omega)

end Calendar

/-! ## Instants -/

/-- An instant: seconds since the start of year 1 in UTC, and nanoseconds. -/
structure Instant where
  sec : Int
  nanos : Nat
  nanos_lt : nanos < 10 ^ 9
  deriving DecidableEq

namespace Instant

open Calendar

/-- The order in time. -/
instance : Ord Instant := ⟨fun a b => (compare a.sec b.sec).then (compare a.nanos b.nanos)⟩

/-- The zero `time.Time`. -/
def zero : Instant := ⟨0, 0, by decide⟩

/-- The day, counted from the start of year 1. -/
def days (t : Instant) : Int := t.sec / 86400

def year (t : Instant) : Int := yearOf t.days + 1

/-- The day of the year, from 0. -/
def yday (t : Instant) : Nat := (t.days - yearStart (yearOf t.days)).toNat

def month (t : Instant) : Nat := (splitDay (monthLengths (isLeap t.year)) 1 t.yday).1

def day (t : Instant) : Nat := (splitDay (monthLengths (isLeap t.year)) 1 t.yday).2

def secOfDay (t : Instant) : Int := t.sec % 86400

def hour (t : Instant) : Nat := (t.secOfDay / 3600).toNat

def minute (t : Instant) : Nat := (t.secOfDay % 3600 / 60).toNat

def second (t : Instant) : Nat := (t.secOfDay % 3600 % 60).toNat

theorem compare_days (a b : Instant) : compare a.days b.days =
    (compare a.year b.year).then ((compare a.month b.month).then (compare a.day b.day)) := by
  have ha := (yearOf_spec a.days).1
  have hb := (yearOf_spec b.days).1
  have hyear : compare (yearOf a.days) (yearOf b.days) = compare a.year b.year :=
    compare_eq_compare (by simp only [year]; omega) (by simp only [year]; omega)
      (by simp only [year]; omega)
  rw [compare_yearOf, hyear, compare_toNat (Int.sub_nonneg_of_le ha) (Int.sub_nonneg_of_le hb)]
  refine Ordering.then_congr fun h => ?_
  -- in one year the months have the same lengths
  rw [compare_eq_iff_eq] at h
  rw [month, day, day, h]
  exact compare_splitDay _ 1 _ _

theorem compare_secOfDay (a b : Instant) : compare a.secOfDay b.secOfDay =
    (compare a.hour b.hour).then ((compare a.minute b.minute).then
      (compare a.second b.second)) := by
  have ha : 0 ≤ a.secOfDay := Int.emod_nonneg _ (by decide)
  have hb : 0 ≤ b.secOfDay := Int.emod_nonneg _ (by decide)
  rw [compare_ediv_emod (show (0 : Int) < 3600 by decide), compare_toNat (by omega) (by omega),
    compare_ediv_emod (show (0 : Int) < 60 by decide) (a.secOfDay % 3600),
    compare_toNat (by omega) (by omega),
    compare_toNat (Int.emod_nonneg _ (by decide)) (Int.emod_nonneg _ (by decide))]
  rfl

/-- The date after the year, and the time of day without its fraction. -/
def compareInYear (a b : Instant) : Ordering :=
  (compare a.month b.month).then ((compare a.day b.day).then ((compare a.hour b.hour).then
    ((compare a.minute b.minute).then (compare a.second b.second))))

theorem compare_sec (a b : Instant) :
    compare a.sec b.sec = (compare a.year b.year).then (compareInYear a b) := by
  rw [compare_ediv_emod (show (0 : Int) < 86400 by decide) a.sec b.sec]
  show (compare a.days b.days).then (compare a.secOfDay b.secOfDay) = _
  simp only [compare_days, compare_secOfDay, compareInYear, Ordering.then_assoc]

end Instant
