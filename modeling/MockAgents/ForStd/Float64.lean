import Mathlib.Data.List.DropRight
import Mathlib.Data.Rat.Lemmas
import MockAgents.ForStd.Decimal

/-!
# Floating-point numbers in JSON

`encoding/json` reads a number into a `float64` with `strconv.ParseFloat` and writes one
back with the fewest digits that `ParseFloat` reads as the same number. Both work on exact
integers here: a finite number is its sign, mantissa and binary exponent.
-/

/-- A finite `float64`: `mant * 2 ^ exp`, negative if `neg`. -/
structure Float64 where
  neg : Bool
  mant : Nat
  exp : Int
  deriving DecidableEq

namespace Float64

open Decimal (natText natValue)

/-- The fraction `num / den`. -/
structure Ratio where
  num : Nat
  den : Nat

/-- The fraction times `base ^ e`. -/
def Ratio.scale (q : Ratio) (base : Nat) (e : Int) : Ratio :=
  if 0 ≤ e then ⟨q.num * base ^ e.toNat, q.den⟩ else ⟨q.num, q.den * base ^ (-e).toNat⟩

/-- The nearest natural number, the even one of two. -/
def Ratio.round (q : Ratio) : Nat :=
  let n := q.num / q.den
  let twice := 2 * (q.num % q.den)
  if q.den < twice ∨ (twice = q.den ∧ n % 2 = 1) then n + 1 else n

/-- The smallest `e` with `q < base ^ (e + 1)`, if the numerator has `a` digits to this base
    and the denominator `b`. -/
def Ratio.log (q : Ratio) (base : Nat) (a b : Nat) : Int :=
  let e : Int := (a : Int) - b
  let s := q.scale base (-e)
  if s.den ≤ s.num then e else e - 1

/-- The nearest `float64`; `none` if it would be infinite. -/
def ofRatio (neg : Bool) (q : Ratio) : Option Float64 :=
  if q.num = 0 then some ⟨neg, 0, 0⟩
  else
    let e := max (q.log 2 q.num.log2 q.den.log2 - 52) (-1074)
    let m := (q.scale 2 (-e)).round
    let f : Float64 :=
      if m = 0 then ⟨neg, 0, 0⟩ else if m = 2 ^ 53 then ⟨neg, 2 ^ 52, e + 1⟩ else ⟨neg, m, e⟩
    if f.exp ≤ 971 then some f else none

/-- The parts of a number literal: the sign, the digits, and the power of ten. -/
def decimalParts (lit : Bytes) : Bool × Nat × Int :=
  let neg := lit.head? == some 45
  let s := if neg then lit.drop 1 else lit
  let whole := s.takeWhile Json.isDigit
  let s := s.dropWhile Json.isDigit
  let frac := if s.head? == some 46 then (s.drop 1).takeWhile Json.isDigit else []
  let s := if s.head? == some 46 then (s.drop 1).dropWhile Json.isDigit else s
  -- what is left is the exponent
  let s := s.drop 1
  let expNeg := s.head? == some 45
  let digits := natValue (s.filter Json.isDigit)
  let e : Int := if expNeg then -digits else digits
  (neg, natValue (whole ++ frac), e - frac.length)

/-- `strconv.ParseFloat` of a JSON number to 64 bits. -/
def parse (lit : Bytes) : Option Float64 :=
  let (neg, n, e) := decimalParts lit
  ofRatio neg ((Ratio.mk n 1).scale 10 e)

/-- The exact value, without its sign. -/
def ratio (f : Float64) : Ratio := (Ratio.mk f.mant 1).scale 2 f.exp

/-- The number. There is one zero. -/
def toRat (f : Float64) : Rat :=
  mkRat (if f.neg then -(f.ratio.num : Int) else f.ratio.num) f.ratio.den

/-- The conversion of an integer, to the nearest `float64`. -/
def ofInt (i : Int) : Option Float64 := ofRatio (i < 0) ⟨i.natAbs, 1⟩

/-- The value of `float64(i)`. An `int` is within the range of `float64`. -/
def roundInt (i : Int) : Rat := ((ofInt i).map toRat).getD 0

/-- The nearest `float64` of a number that is not too large for one. -/
def round (x : Rat) : Rat := ((ofRatio (x < 0) ⟨x.num.natAbs, x.den⟩).map toRat).getD x

/-- `x + y` of two `float64`s. -/
def add (x y : Rat) : Rat := round (x + y)

/-- The text of `0.d₁d₂… * 10 ^ point`, with an exponent for large and small numbers. -/
def decimalText (neg : Bool) (digits : Bytes) (point : Int) : Bytes :=
  let sign : Bytes := if neg then [45] else []
  let zeros (n : Int) : Bytes := List.replicate n.toNat 48
  if -5 ≤ point ∧ point ≤ 21 then
    if point ≤ 0 then sign ++ [48, 46] ++ zeros (-point) ++ digits
    else if digits.length ≤ point then sign ++ digits ++ zeros (point - digits.length)
    else sign ++ digits.take point.toNat ++ 46 :: digits.drop point.toNat
  else
    let frac : Bytes := if digits.length ≤ 1 then [] else 46 :: digits.drop 1
    let e := point - 1
    sign ++ digits.take 1 ++ frac ++ 101 :: (if e < 0 then 45 else 43) :: natText e.natAbs

/-- The texts of `n` digits next to `f`: the nearest, the one below and the one above. -/
def texts (f : Float64) (n : Nat) : List Bytes :=
  let q := f.ratio
  let e := q.log 10 (natText q.num).length (natText q.den).length + 1 - n
  let s := q.scale 10 (-e)
  [s.round, s.num / s.den, s.num / s.den + 1].map fun m =>
    let digits := (natText m).rdropWhile (· == 48)
    decimalText f.neg digits ((natText m).length + e)

/-- How the encoder writes a `float64`: the first text, from few digits to many, that reads
    back as the same number. -/
def format (f : Float64) : Option Bytes :=
  let zero : Bytes := if f.neg then [45, 48] else [48]
  let all := if f.mant = 0 then [zero] else (List.range 17).flatMap fun n => f.texts (n + 1)
  all.find? fun t => Json.isNum t && parse t = some f

/-- The text that a number literal has after it was read and written. -/
def canonical (lit : Bytes) : Option Bytes := (parse lit).bind format

/-! ## Integers -/

/-- A written number is read back as the same number. -/
theorem parse_format {f : Float64} {t : Bytes} (h : f.format = some t) :
    Json.isNum t = true ∧ parse t = some f := by
  have hfind := List.find?_some h
  simpa using hfind

theorem canonical_idem {lit t : Bytes} (h : canonical lit = some t) :
    Json.isNum t = true ∧ canonical t = some t := by
  obtain ⟨f, _, hf⟩ := Option.bind_eq_some_iff.mp h
  obtain ⟨hnum, hparse⟩ := parse_format hf
  refine ⟨hnum, ?_⟩
  rw [canonical, hparse]
  exact hf

end Float64
