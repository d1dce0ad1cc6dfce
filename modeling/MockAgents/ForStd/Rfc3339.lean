import MockAgents.ForStd.Decimal

/-!
# RFC 3339 timestamps

A `time.Time` as its JSON encoding sees it: a date and a time of day with nanoseconds, in
UTC or at an offset from it. `Time.format` is the `RFC3339Nano` layout and `Time.parse` is
`parseRFC3339`.
-/

open Decimal (digit)

/-- The zone of a timestamp: UTC, or hours and minutes before or after it. -/
inductive Zone where
  | utc
  | offset (west : Bool) (hours : Fin 24) (minutes : Fin 60)
  deriving DecidableEq

def daysIn (year month : Nat) : Nat :=
  if month = 2 then
    if year % 4 = 0 ∧ (year % 100 ≠ 0 ∨ year % 400 = 0) then 29 else 28
  else if month = 4 ∨ month = 6 ∨ month = 9 ∨ month = 11 then 30
  else 31

theorem daysIn_le (year month : Nat) : daysIn year month ≤ 31 := by
  unfold daysIn
  split
  · split <;> omega
  · split <;> omega

/-- A date and a time of day. -/
structure Clock where
  year : Nat
  month : Nat
  day : Nat
  hour : Nat
  minute : Nat
  second : Nat
  nanos : Nat
  deriving DecidableEq

/-- The ranges that `parseRFC3339` checks. -/
def Clock.isValid (c : Clock) : Bool :=
  decide (c.year ≤ 9999 ∧ 1 ≤ c.month ∧ c.month ≤ 12 ∧ 1 ≤ c.day ∧ c.day ≤ daysIn c.year c.month ∧
    c.hour ≤ 23 ∧ c.minute ≤ 59 ∧ c.second ≤ 59 ∧ c.nanos < 10 ^ 9)

/-- A timestamp. -/
structure Time where
  clock : Clock
  zone : Zone
  valid : clock.isValid = true
  deriving DecidableEq

namespace Time

open Decimal (isDigit_digit parseNat toNat_digit)
open Json (isDigit isPlain)

def zero : Time := ⟨⟨1, 1, 1, 0, 0, 0, 0⟩, .utc, by decide⟩

def isZero (t : Time) : Bool := t = zero

/-! ## Formatting -/

/-- Two digits. -/
def text2 (n : Nat) : Bytes := [digit (n / 10), digit (n % 10)]

/-- The digits of the fraction `n / 10 ^ w` after the point, without the zeros at its end. -/
def fracText : (w : Nat) → Nat → Bytes
  | 0, _ => []
  | w + 1, n => if n = 0 then [] else digit (n / 10 ^ w) :: fracText w (n % 10 ^ w)

/-- The nanoseconds, with their point. -/
def nanosText (n : Nat) : Bytes := if n = 0 then [] else 46 :: fracText 9 n

def zoneText : Zone → Bytes
  | .utc => [90]
  | .offset west h m => (if west then 45 else 43) :: text2 h ++ 58 :: text2 m

/-- `2006-01-02T15:04:05`. -/
def secondsText (c : Clock) : Bytes :=
  text2 (c.year / 100) ++ text2 (c.year % 100) ++ 45 :: text2 c.month ++ 45 :: text2 c.day ++
    84 :: text2 c.hour ++ 58 :: text2 c.minute ++ 58 :: text2 c.second

/-- `Format(time.RFC3339Nano)`. -/
def format (t : Time) : Bytes :=
  secondsText t.clock ++ (nanosText t.clock.nanos ++ zoneText t.zone)

/-! ## Parsing -/

/-- Two digits. -/
def value2 (a b : UInt8) : Option Nat := parseNat [a, b]

/-- The value of fraction digits, of which at most `w` count. -/
def fracValue : (w : Nat) → Bytes → Nat
  | 0, _ => 0
  | _ + 1, [] => 0
  | w + 1, b :: s => (b.toNat - 48) * 10 ^ w + fracValue w s

/-- The nanoseconds and what follows them. A point with no digit is not taken. -/
def parseNanos : Bytes → Nat × Bytes
  | 46 :: s =>
    if s.takeWhile isDigit = [] then (0, 46 :: s)
    else (fracValue 9 (s.takeWhile isDigit), s.dropWhile isDigit)
  | s => (0, s)

def parseZone : Bytes → Option Zone
  | [90] => some .utc
  | [sign, h₁, h₂, 58, m₁, m₂] =>
    match value2 h₁ h₂, value2 m₁ m₂ with
    | some h, some m =>
      if hh : h < 24 then
        if hm : m < 60 then
          if sign = 45 then some (.offset true ⟨h, hh⟩ ⟨m, hm⟩)
          else if sign = 43 then some (.offset false ⟨h, hh⟩ ⟨m, hm⟩)
          else none
        else none
      else none
    | _, _ => none
  | _ => none

/-- `parseRFC3339`. -/
def parse : Bytes → Option Time
  | y₁ :: y₂ :: y₃ :: y₄ :: 45 :: m₁ :: m₂ :: 45 :: d₁ :: d₂ :: 84 :: h₁ :: h₂ :: 58 ::
      n₁ :: n₂ :: 58 :: s₁ :: s₂ :: rest =>
    match value2 y₁ y₂, value2 y₃ y₄, value2 m₁ m₂, value2 d₁ d₂, value2 h₁ h₂, value2 n₁ n₂,
      value2 s₁ s₂ with
    | some century, some year, some month, some day, some hour, some minute, some second =>
      let (nanos, rest) := parseNanos rest
      match parseZone rest with
      | none => none
      | some zone =>
        let c : Clock := ⟨century * 100 + year, month, day, hour, minute, second, nanos⟩
        if h : c.isValid = true then some ⟨c, zone, h⟩ else none
    | _, _, _, _, _, _, _ => none
  | _ => none

/-! ## Reading what was written -/

variable {n : Nat}

theorem value2_text2 (h : n < 100) : value2 (digit (n / 10)) (digit (n % 10)) = some n := by
  have h₁ : n / 10 < 10 := by omega
  have h₂ : n % 10 < 10 := by omega
  simp only [value2, parseNat, List.all_cons, List.all_nil, isDigit_digit h₁,
    isDigit_digit h₂, Decimal.natValue, Decimal.natValueFrom, List.foldl_cons,
    List.foldl_nil, toNat_digit h₁, toNat_digit h₂]
  simp
  omega

variable {w : Nat}

theorem div_pow_lt (h : n < 10 ^ (w + 1)) : n / 10 ^ w < 10 := by
  rw [Nat.div_lt_iff_lt_mul (Nat.pow_pos (by omega))]
  omega

theorem fracValue_fracText (h : n < 10 ^ w) : fracValue w (fracText w n) = n := by
  induction w generalizing n with
  | zero =>
    simp at h
    simp [fracValue, h]
  | succ w ih =>
    rw [fracText]
    split
    · rename_i hn
      simp [fracValue, hn]
    · rw [fracValue, toNat_digit (div_pow_lt h),
        ih (Nat.mod_lt _ (Nat.pow_pos (by omega))), Nat.add_sub_cancel_left]
      exact Nat.div_add_mod' n (10 ^ w)

theorem all_isDigit_fracText (h : n < 10 ^ w) : ∀ b ∈ fracText w n, isDigit b = true := by
  induction w generalizing n with
  | zero => simp [fracText]
  | succ w ih =>
    rw [fracText]
    split
    · simp
    · intro b hb
      rcases List.mem_cons.mp hb with rfl | hb
      · exact isDigit_digit (div_pow_lt h)
      · exact ih (Nat.mod_lt _ (Nat.pow_pos (by omega))) b hb

theorem zoneText_head (z : Zone) :
    ∃ b s, zoneText z = b :: s ∧ isDigit b = false ∧ b ≠ 46 := by
  cases z with
  | utc => exact ⟨90, [], rfl, rfl, by decide⟩
  | offset west h m => cases west <;> exact ⟨_, _, rfl, rfl, by decide⟩

theorem parseNanos_nanosText (h : n < 10 ^ 9) (z : Zone) :
    parseNanos (nanosText n ++ zoneText z) = (n, zoneText z) := by
  obtain ⟨b, s, hz, hb, hpoint⟩ := zoneText_head z
  rw [nanosText]
  split
  · rename_i hn
    rw [hz, hn]
    unfold parseNanos
    split
    · rename_i heq
      exact absurd (List.cons.inj heq).1 hpoint
    · rfl
  · rename_i hn
    have hdigits := all_isDigit_fracText h
    have htake : (fracText 9 n ++ zoneText z).takeWhile isDigit = fracText 9 n := by
      rw [List.takeWhile_append_of_pos hdigits, hz, List.takeWhile_cons_of_neg (by simp [hb]),
        List.append_nil]
    have hdrop : (fracText 9 n ++ zoneText z).dropWhile isDigit = zoneText z := by
      rw [List.dropWhile_append_of_pos hdigits, hz, List.dropWhile_cons_of_neg (by simp [hb])]
    have hne : fracText 9 n ≠ [] := by
      rw [fracText, if_neg hn]
      simp
    simp only [List.cons_append, parseNanos, htake, hdrop, if_neg hne, fracValue_fracText h]

theorem parseZone_zoneText (z : Zone) : parseZone (zoneText z) = some z := by
  cases z with
  | utc => rfl
  | offset west h m =>
    have hh := value2_text2 (show h.val < 100 by omega)
    have hm := value2_text2 (show m.val < 100 by omega)
    cases west <;> simp [zoneText, text2, parseZone, hh, hm]

/-- The parts of a clock fit their digits. -/
theorem lt_of_isValid {c : Clock} (h : c.isValid = true) :
    c.year / 100 < 100 ∧ c.year % 100 < 100 ∧ c.month < 100 ∧ c.day < 100 ∧ c.hour < 100 ∧
      c.minute < 100 ∧ c.second < 100 ∧ c.nanos < 10 ^ 9 := by
  simp only [Clock.isValid, decide_eq_true_eq] at h
  have hdays := daysIn_le c.year c.month
  omega

/-- A written timestamp is read back. -/
theorem parse_format (t : Time) : parse t.format = some t := by
  obtain ⟨c, z, hvalid⟩ := t
  obtain ⟨hcent, hyear, hmonth, hday, hhour, hminute, hsecond, hnanos⟩ := lt_of_isValid hvalid
  have hcentury : c.year / 100 * 100 + c.year % 100 = c.year := by omega
  simp only [format, secondsText, text2, List.cons_append, List.nil_append, parse,
    value2_text2 hcent, value2_text2 hyear, value2_text2 hmonth, value2_text2 hday,
    value2_text2 hhour, value2_text2 hminute, value2_text2 hsecond, parseNanos_nanosText hnanos,
    parseZone_zoneText, hcentury, hvalid, dif_pos]

/-! ## Timestamps as JSON strings -/

theorem isPlain_of_isDigit {b : UInt8} (h : isDigit b = true) : isPlain b = true := by
  simp only [isDigit, decide_eq_true_eq] at h
  have h34 : b ≠ 34 := by
    rintro rfl
    exact absurd h.1 (by decide)
  have h92 : b ≠ 92 := by
    rintro rfl
    exact absurd h.2 (by decide)
  simp only [isPlain, decide_eq_true_eq]
  exact ⟨h34, h92, by omega⟩

theorem all_isPlain_text2 (h : n < 100) : (text2 n).all isPlain = true := by
  simp [text2, isPlain_of_isDigit (isDigit_digit (show n / 10 < 10 by omega)),
    isPlain_of_isDigit (isDigit_digit (show n % 10 < 10 by omega))]

theorem all_isPlain_nanosText (h : n < 10 ^ 9) : (nanosText n).all isPlain = true := by
  unfold nanosText
  split
  · rfl
  · rw [List.all_cons, List.all_eq_true.mpr fun b hb =>
      isPlain_of_isDigit (all_isDigit_fracText h b hb)]
    rfl

theorem all_isPlain_zoneText (z : Zone) : (zoneText z).all isPlain = true := by
  cases z with
  | utc => rfl
  | offset west h m =>
    have hh := all_isPlain_text2 (show h.val < 100 by omega)
    have hm := all_isPlain_text2 (show m.val < 100 by omega)
    cases west <;> simp [zoneText, List.all_append, hh, hm, isPlain]

/-- A timestamp needs no escapes. -/
theorem isRaw_format (t : Time) : Json.IsRaw t.format := by
  obtain ⟨c, z, hvalid⟩ := t
  obtain ⟨hcent, hyear, hmonth, hday, hhour, hminute, hsecond, hnanos⟩ := lt_of_isValid hvalid
  apply Json.isRaw_of_isPlain
  simp [format, secondsText, List.all_append, all_isPlain_nanosText hnanos, all_isPlain_zoneText,
    all_isPlain_text2 hcent, all_isPlain_text2 hyear, all_isPlain_text2 hmonth,
    all_isPlain_text2 hday, all_isPlain_text2 hhour, all_isPlain_text2 hminute,
    all_isPlain_text2 hsecond, isPlain]

end Time
