import Mathlib.Data.List.Induction
import Mathlib.Data.List.TakeWhile
import MockAgents.ForStd.Json

/-!
# Runes

Two functions of Go's standard library that work on the code points of a string.

`strings.Map` applies a function to each of them. `strings.ToUpper` and `strings.ToLower` are
cases of it; the tables of `unicode` for the code points above U+007F are parameters.

`strconv.Quote` writes a string as a Go literal. Go and JSON literals share most escapes but
not all: `\a`, `\v`, `\x` and `\U` are no JSON. So a quoted string is a JSON text for some
strings only, and `isJsonQuotable` says for which characters. Which code points above U+007F
are printable is a table of `strconv`; here `isPrint` is any predicate.
-/

open Bytes (Seg segs)

/-- The code point that the bytes of a multi-byte rune encode. -/
def Bytes.runeValue : Bytes → Nat
  | [a, b] => (a.toNat - 0xC0) * 64 + (b.toNat - 0x80)
  | [a, b, c] => (a.toNat - 0xE0) * 4096 + (b.toNat - 0x80) * 64 + (c.toNat - 0x80)
  | [a, b, c, d] =>
    (a.toNat - 0xF0) * 262144 + (b.toNat - 0x80) * 4096 + (c.toNat - 0x80) * 64 + (d.toNat - 0x80)
  | _ => 0xFFFD

/-! ## Mapping -/

namespace Strings

/-- The code point of a segment; `utf8.RuneError` for a byte that is not UTF-8. -/
def codePoint : Seg → Nat
  | .ascii b => b.toNat
  | .rune bs => Bytes.runeValue bs
  | .bad _ => 0xFFFD

/-- The characters of a text, U+FFFD for a byte that is not UTF-8. -/
def ofBytes (s : Bytes) : String :=
  String.ofList ((segs s).map fun x => Char.ofNat (codePoint x))

/-- `strings.Map`, for a function that drops no character. -/
def map (f : Nat → Nat) (s : Bytes) : Bytes :=
  (segs s).flatMap fun x => Json.encodeRune (f (codePoint x))

/-- `strings.ToUpper`, where `upper` is the table above U+007F. -/
def toUpper (upper : Nat → Nat) (s : Bytes) : Bytes :=
  map (fun r => if 97 ≤ r ∧ r ≤ 122 then r - 32 else if r < 0x80 then r else upper r) s

/-- `strings.ToLower`, where `lower` is the table above U+007F. -/
def toLower (lower : Nat → Nat) (s : Bytes) : Bytes :=
  map (fun r => if 65 ≤ r ∧ r ≤ 90 then r + 32 else if r < 0x80 then r else lower r) s

theorem isUtf8_map (f : Nat → Nat) (s : Bytes) : Bytes.isUtf8 (map f s) = true := by
  rw [map]
  induction segs s with
  | nil => rfl
  | cons x l ih =>
    exact Bytes.isUtf8_append (Json.isUtf8_encodeRune _) ih

theorem isUtf8_toUpper (upper : Nat → Nat) (s : Bytes) :
    Bytes.isUtf8 (toUpper upper s) = true :=
  isUtf8_map _ s

end Strings

/-! ## Quoting -/

namespace Strconv

open Bytes (runeValue)

/-- `\x` and two digits. -/
def escapeX (b : UInt8) : Bytes :=
  [92, 120, Bytes.hexDigit (b.toNat / 16), Bytes.hexDigit (b.toNat % 16)]

/-- `\u` and four digits. -/
def escapeU (r : Nat) : Bytes :=
  [92, 117, Bytes.hexDigit (r / 4096 % 16), Bytes.hexDigit (r / 256 % 16),
    Bytes.hexDigit (r / 16 % 16), Bytes.hexDigit (r % 16)]

/-- `\U` and eight digits, for a code point above U+FFFF. -/
def escapeLongU (r : Nat) : Bytes :=
  [92, 85, Bytes.hexDigit (r / 268435456 % 16), Bytes.hexDigit (r / 16777216 % 16),
    Bytes.hexDigit (r / 1048576 % 16), Bytes.hexDigit (r / 65536 % 16),
    Bytes.hexDigit (r / 4096 % 16), Bytes.hexDigit (r / 256 % 16),
    Bytes.hexDigit (r / 16 % 16), Bytes.hexDigit (r % 16)]

/-- `appendEscapedRune` for a character below U+0080. -/
def quoteAscii (b : UInt8) : Bytes :=
  if b = 34 ∨ b = 92 then [92, b]
  else if 32 ≤ b.toNat ∧ b.toNat < 127 then [b]
  else if b = 7 then [92, 97]
  else if b = 8 then [92, 98]
  else if b = 12 then [92, 102]
  else if b = 10 then [92, 110]
  else if b = 13 then [92, 114]
  else if b = 9 then [92, 116]
  else if b = 11 then [92, 118]
  else escapeX b

/-- `appendEscapedRune` for a character above U+007F. -/
def quoteRune (isPrint : Nat → Bool) (bs : Bytes) : Bytes :=
  if isPrint (runeValue bs) then bs
  else if runeValue bs < 0x10000 then escapeU (runeValue bs)
  else escapeLongU (runeValue bs)

def quoteSeg (isPrint : Nat → Bool) : Seg → Bytes
  | .ascii b => quoteAscii b
  | .rune bs => quoteRune isPrint bs
  | .bad b => escapeX b

/-- What stands between the quotes. -/
def quoteText (isPrint : Nat → Bool) (s : Bytes) : Bytes := (segs s).flatMap (quoteSeg isPrint)

def quote (isPrint : Nat → Bool) (s : Bytes) : Bytes := 34 :: quoteText isPrint s ++ [34]

/-! ## Which literals are JSON -/

/-- A printable ASCII character, or one of the five controls with a short escape in JSON. -/
def isQuotableAscii (b : UInt8) : Bool :=
  decide (32 ≤ b.toNat ∧ b.toNat < 127) || b == 8 || b == 9 || b == 10 || b == 12 || b == 13

/-- The character is written as itself or with an escape that JSON has too: from `U+0080` on
    it is printable or at most `U+FFFF`. -/
def isJsonQuotable (isPrint : Nat → Bool) : Seg → Bool
  | .ascii b => isQuotableAscii b
  | .rune bs => isPrint (runeValue bs) || decide (runeValue bs < 0x10000)
  | .bad _ => false

theorem strSteps_quoteAscii {b : UInt8} (hb : b.toNat < 0x80) :
    Json.strSteps .normal (quoteAscii b) = if isQuotableAscii b then some .normal else none := by
  have hall : ∀ n : Fin 0x80, Json.strSteps .normal (quoteAscii (UInt8.ofNat n)) =
      if isQuotableAscii (UInt8.ofNat n) then some .normal else none := by
    decide
  have hn := hall ⟨b.toNat, hb⟩
  rwa [UInt8.ofNat_toNat] at hn

theorem isRaw_escapeU (r : Nat) : Json.IsRaw (escapeU r) := by
  have hdigit : ∀ n, Json.hexVal (Bytes.hexDigit (n % 16)) = some (n % 16) :=
    fun n => Json.hexVal_hexDigit (Nat.mod_lt n (by decide))
  apply Json.isRaw_hex (r := r / 4096 % 16 * 4096 + r / 256 % 16 * 256 + r / 16 % 16 * 16 + r % 16)
  simp only [Json.hex4, hdigit]

theorem strSteps_escapeX (b : UInt8) : Json.strSteps .normal (escapeX b) = none := rfl

theorem strSteps_escapeLongU (r : Nat) : Json.strSteps .normal (escapeLongU r) = none := rfl

theorem strSteps_quoteRune {bs : Bytes} (h : Bytes.multibyte bs = some bs)
    (isPrint : Nat → Bool) :
    Json.strSteps .normal (quoteRune isPrint bs) =
      if isJsonQuotable isPrint (.rune bs) then some .normal else none := by
  rw [quoteRune, isJsonQuotable]
  split
  · rename_i hprint
    rw [hprint, Bool.true_or, if_pos rfl]
    exact Json.isRaw_not_ascii fun b hb => Bytes.not_ascii_of_multibyte h hb
  · rename_i hprint
    rw [Bool.not_eq_true] at hprint
    rw [hprint, Bool.false_or]
    split
    · rename_i hsmall
      rw [decide_eq_true hsmall, if_pos rfl]
      exact isRaw_escapeU _
    · rename_i hlarge
      rw [decide_eq_false hlarge]
      exact strSteps_escapeLongU _

/-- The scanner passes the literal iff it passes every character. -/
theorem strSteps_quoteText (isPrint : Nat → Bool) (s : Bytes) :
    Json.strSteps .normal (quoteText isPrint s) =
      if (segs s).all (isJsonQuotable isPrint) then some .normal else none := by
  have hpieces : ∀ x ∈ segs s, Json.strSteps .normal (quoteSeg isPrint x) =
      if isJsonQuotable isPrint x then some .normal else none := by
    intro x hx
    obtain ⟨b, hb, rfl⟩ | ⟨bs, hbs, rfl⟩ | ⟨b, rfl⟩ := Bytes.mem_segs_cases hx
    · exact strSteps_quoteAscii hb
    · exact strSteps_quoteRune hbs isPrint
    · exact strSteps_escapeX b
  rw [quoteText]
  generalize segs s = l at hpieces ⊢
  induction l with
  | nil => rfl
  | cons x l ih =>
    -- a character that passes leaves the state as it was, and one that does not ends the scan
    rw [List.flatMap_cons, Json.strSteps_append, hpieces x (by simp), List.all_cons]
    cases isJsonQuotable isPrint x with
    | true => exact ih fun y hy => hpieces y (by simp [hy])
    | false => rfl

/-- What stands between the quotes is the text of a JSON string iff every character of the string
    is quotable. -/
theorem isRaw_quoteText_iff (isPrint : Nat → Bool) (s : Bytes) :
    Json.IsRaw (quoteText isPrint s) ↔ (segs s).all (isJsonQuotable isPrint) = true := by
  rw [Json.IsRaw, strSteps_quoteText]
  split
  · rename_i h
    simp [h]
  · rename_i h
    simp [h]

theorem parse_quoted (q : Bytes) :
    Json.parse (34 :: q ++ [34]) = if Json.IsRaw q then some (.str q) else none := by
  have hskip : Json.skipWs (34 :: q ++ [34]) = 34 :: (q ++ [34]) :=
    Json.skipWs_cons (by decide) _
  have hvalue : Json.parseValue Json.maxNestingDepth (34 :: (q ++ [34])) =
      (Json.scanString .normal (q ++ [34])).map (Prod.map .str id) :=
    Json.parseValue_scalar (by simp) (by simp) _
  rw [Json.parse, hskip, hvalue]
  by_cases hraw : Json.IsRaw q
  · have hscan : Json.scanString .normal (q ++ [34]) = some (q, []) :=
      Json.scanString_eq_some_iff.mpr ⟨hraw, rfl⟩
    rw [hscan, if_pos hraw]
    rfl
  · rw [if_neg hraw]
    cases hscan : Json.scanString .normal (q ++ [34]) with
    | none => rfl
    | some x =>
      obtain ⟨raw, r⟩ := x
      obtain ⟨hsteps, heq⟩ := Json.scanString_eq_some_iff.mp hscan
      -- the string ended early, so the last quote follows it
      have hr : Json.skipWs r ≠ [] := by
        intro hnil
        have hspace := List.dropWhile_eq_nil_iff.mp hnil
        cases r using List.reverseRecOn with
        | nil =>
          obtain ⟨rfl, -⟩ := List.append_inj' heq rfl
          exact hraw hsteps
        | append_singleton r b =>
          have hlast : q ++ [34] = (raw ++ 34 :: r) ++ [b] := by simpa using heq
          obtain ⟨-, hb⟩ := List.append_inj' hlast rfl
          obtain rfl : 34 = b := by simpa using hb
          exact absurd (hspace 34 (by simp)) (by decide)
      show (if Json.skipWs r = [] then some (Json.str raw) else none) = none
      rw [if_neg hr]

/-- A quoted string is the JSON text of a string iff every character is quotable, and no
    JSON at all otherwise. -/
theorem parse_quote (isPrint : Nat → Bool) (s : Bytes) :
    Json.parse (quote isPrint s) =
      if (segs s).all (isJsonQuotable isPrint) then some (.str (quoteText isPrint s))
      else none := by
  rw [quote, parse_quoted]
  simp [isRaw_quoteText_iff]

-- a line break is quotable, a bell is not
example : Json.valid (quote (fun _ => true) [10]) = true := by decide
example : Json.valid (quote (fun _ => true) [7]) = false := by decide

end Strconv
