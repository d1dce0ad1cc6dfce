import Mathlib.Algebra.Ring.Int.Defs
import MockAgents.ForStd.Json

/-!
# Decimal numbers

The decimal texts that `strconv` writes and reads, as bytes: natural numbers, integers of
64 bits, and numbers padded to a width.
-/

namespace Decimal

open Json (isDigit)

def digit (n : Nat) : UInt8 := UInt8.ofNat (48 + n)

/-- The digits of `n`, of which there are at most `fuel`. -/
def natTextFrom : (fuel : Nat) → Nat → Bytes
  | 0, _ => []
  | fuel + 1, n => if n < 10 then [digit n] else natTextFrom fuel (n / 10) ++ [digit (n % 10)]

/-- `strconv.FormatUint` to base ten. -/
def natText (n : Nat) : Bytes := natTextFrom (n + 1) n

/-- The number that digits make, after the digits that make `acc`. -/
def natValueFrom (acc : Nat) (s : Bytes) : Nat :=
  s.foldl (fun acc b => acc * 10 + (b.toNat - 48)) acc

/-- The number that digits make. -/
def natValue (s : Bytes) : Nat := natValueFrom 0 s

/-- `strconv.FormatInt` to base ten. -/
def intText (i : Int) : Bytes := if i < 0 then 45 :: natText i.natAbs else natText i.natAbs

/-- `strconv.ParseUint` to base ten, for any size. -/
def parseNat (s : Bytes) : Option Nat :=
  if s ≠ [] ∧ s.all isDigit then some (natValue s) else none

/-- The integers of 64 bits. -/
def inInt64 (i : Int) : Bool := decide (-(2 : Int) ^ 63 ≤ i ∧ i < (2 : Int) ^ 63)

/-- `strconv.ParseInt` of a JSON number to 64 bits. -/
def parseInt (s : Bytes) : Option Int :=
  let i := match s with
    | 45 :: s => (parseNat s).map fun n => -(n : Int)
    | s => (parseNat s).map fun n => (n : Int)
  i.filter inInt64

/-! ## Reading what was written -/

variable {n : Nat}

theorem toNat_digit (h : n < 10) : (digit n).toNat = 48 + n := by
  simp only [digit, UInt8.toNat_ofNat']
  omega

theorem isDigit_digit (h : n < 10) : isDigit (digit n) = true := by
  simp only [isDigit, toNat_digit h, decide_eq_true_eq]
  omega

theorem natValueFrom_append (acc : Nat) (s t : Bytes) :
    natValueFrom acc (s ++ t) = natValueFrom (natValueFrom acc s) t := List.foldl_append

theorem natTextFrom_spec {fuel : Nat} (h : n < fuel) :
    natValue (natTextFrom fuel n) = n ∧ (natTextFrom fuel n).all isDigit = true ∧
      ∃ b l, natTextFrom fuel n = b :: l ∧ (b = 48 → n = 0) := by
  induction fuel generalizing n with
  | zero => omega
  | succ fuel ih =>
    rw [natTextFrom]
    split
    · rename_i hn
      have hdigit := toNat_digit hn
      refine ⟨?_, by simp [isDigit_digit hn], digit n, [], rfl, ?_⟩
      · simp only [natValue, natValueFrom, List.foldl_cons, List.foldl_nil, hdigit]
        omega
      · intro h48
        rw [h48] at hdigit
        have : (48 : UInt8).toNat = 48 := rfl
        omega
    · obtain ⟨hvalue, hall, b, l, heq, hb⟩ := ih (n := n / 10) (by omega)
      have hdigit := toNat_digit (show n % 10 < 10 by omega)
      refine ⟨?_, ?_, b, l ++ [digit (n % 10)], by rw [heq]; rfl, ?_⟩
      · rw [natValue, natValueFrom_append, ← natValue]
        simp only [natValueFrom, List.foldl_cons, List.foldl_nil, hdigit]
        omega
      · rw [List.all_append, hall]
        simp [isDigit_digit (show n % 10 < 10 by omega)]
      · intro h48
        have := hb h48
        omega

theorem natValue_natText (n : Nat) : natValue (natText n) = n :=
  (natTextFrom_spec (Nat.lt_succ_self n)).1

theorem all_isDigit_natText (n : Nat) : (natText n).all isDigit = true :=
  (natTextFrom_spec (Nat.lt_succ_self n)).2.1

theorem natText_head (n : Nat) : ∃ b l, natText n = b :: l ∧ (b = 48 → n = 0) :=
  (natTextFrom_spec (Nat.lt_succ_self n)).2.2

theorem parseNat_natText (n : Nat) : parseNat (natText n) = some n := by
  obtain ⟨b, l, heq, _⟩ := natText_head n
  have hne : natText n ≠ [] := by simp [heq]
  rw [parseNat, if_pos ⟨hne, all_isDigit_natText n⟩, natValue_natText]

/-- The same for integers. -/
theorem parseInt_intText {i : Int} (h : inInt64 i = true) : parseInt (intText i) = some i := by
  unfold intText
  split
  · have hneg : -((i.natAbs : Nat) : Int) = i := by omega
    simp only [parseInt, parseNat_natText]
    show (some (-((i.natAbs : Nat) : Int))).filter inInt64 = some i
    rw [hneg, Option.filter_some, if_pos h]
  · have hpos : ((i.natAbs : Nat) : Int) = i := by omega
    obtain ⟨b, l, heq, _⟩ := natText_head i.natAbs
    have hb : b ≠ 45 := by
      rintro rfl
      have := all_isDigit_natText i.natAbs
      rw [heq] at this
      cases this
    have hparse := parseNat_natText i.natAbs
    rw [heq] at hparse ⊢
    simp only [parseInt]
    split
    · rename_i hcons
      exact absurd (List.cons.inj hcons).1 hb
    · rw [hparse]
      simp [hpos, Option.filter, h]

/-! ## JSON numbers -/

theorem numSteps_int {s : Bytes} (h : s.all isDigit = true) :
    Json.numSteps .int s = some .int := by
  induction s with
  | nil => rfl
  | cons b s ih =>
    simp only [List.all_cons, Bool.and_eq_true] at h
    simp [Json.numSteps_cons, Json.numStep, h.1, ih h.2]

theorem numSteps_natText {st : Json.NumState} (hst : st = .start ∨ st = .minus) (n : Nat) :
    (Json.numSteps st (natText n)).any Json.NumState.accepts = true := by
  by_cases hn : n = 0
  · subst hn
    rcases hst with rfl | rfl <;> rfl
  · obtain ⟨b, l, heq, hzero⟩ := natText_head n
    have hall := all_isDigit_natText n
    rw [heq, List.all_cons, Bool.and_eq_true] at hall
    have hb48 : b ≠ 48 := fun h => hn (hzero h)
    have hb45 : b ≠ 45 := by
      rintro rfl
      exact nomatch hall.1
    rw [heq]
    rcases hst with rfl | rfl <;>
      simp [Json.numSteps_cons, Json.numStep, hb48, hb45, hall.1, numSteps_int hall.2,
        Json.NumState.accepts]

/-- A written integer is a JSON number. -/
theorem isNum_intText (i : Int) : Json.isNum (intText i) = true := by
  unfold intText
  split
  · have hminus : (Json.numSteps .minus (natText i.natAbs)).any Json.NumState.accepts = true :=
      numSteps_natText (.inr rfl) i.natAbs
    simpa [Json.isNum, Json.numSteps_cons, Json.numStep] using hminus
  · exact numSteps_natText (.inl rfl) i.natAbs

end Decimal
