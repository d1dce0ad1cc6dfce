import Mathlib.Logic.Function.Basic
import Mathlib.Data.List.Basic

/-!
# Byte strings

A Go string is a list of bytes, which need not be valid UTF-8. This module has the bytes
of a text, and the hexadecimal and the unpadded URL-safe base64 encodings.
-/

/-- A Go string or byte slice. -/
abbrev Bytes := List UInt8

namespace Bytes

instance instLawfulBEq : LawfulBEq Bytes := inferInstance

/-- The UTF-8 bytes of a text. -/
def ofString (s : String) : Bytes := s.toList.flatMap String.utf8EncodeChar

theorem utf8EncodeChar_ne_nil (c : Char) : String.utf8EncodeChar c ≠ [] := by
  unfold String.utf8EncodeChar
  simp only []
  split
  · simp
  · split
    · simp
    · split <;> simp

theorem ofString_eq_nil_iff (s : String) : ofString s = [] ↔ s = "" := by
  rw [ofString, List.flatMap_eq_nil_iff]
  constructor
  · intro h
    have hnil : s.toList = [] :=
      List.eq_nil_iff_forall_not_mem.mpr fun c hc => utf8EncodeChar_ne_nil c (h c hc)
    exact String.toList_eq_nil_iff.mp hnil
  · rintro rfl
    simp

/-- `strings.Cut`: what stands before the first `sep`, and what follows it. -/
def cut (sep : Bytes) : Bytes → Option (Bytes × Bytes)
  | [] => if sep = [] then some ([], []) else none
  | b :: s =>
    if sep.isPrefixOf (b :: s) then some ([], (b :: s).drop sep.length)
    else (cut sep s).map fun (before, after) => (b :: before, after)

/-- `strings.Split` at one byte. -/
def split (sep : UInt8) : Bytes → List Bytes
  | [] => [[]]
  | b :: s =>
    if b = sep then [] :: split sep s
    else
      match split sep s with
      | [] => [[b]]
      | l :: ls => (b :: l) :: ls

theorem split_append {sep : UInt8} {line : Bytes} (h : sep ∉ line) (rest : Bytes) :
    split sep (line ++ sep :: rest) = line :: split sep rest := by
  induction line with
  | nil => simp [split]
  | cons b line ih =>
    have hb : b ≠ sep := fun hb => h (by simp [hb])
    rw [List.cons_append, split, if_neg hb, ih fun hmem => h (by simp [hmem])]

theorem eq_of_cut {sep s before after : Bytes} (h : cut sep s = some (before, after)) :
    s = before ++ sep ++ after := by
  induction s generalizing before with
  | nil =>
    simp only [cut] at h
    split at h
    · rename_i hsep
      cases h
      simp [hsep]
    · cases h
  | cons b s ih =>
    simp only [cut] at h
    split at h
    · rename_i hsep
      cases h
      obtain ⟨t, ht⟩ := List.isPrefixOf_iff_prefix.mp hsep
      rw [← ht]
      simp
    · obtain ⟨⟨before', after'⟩, hcut, heq⟩ := Option.map_eq_some_iff.mp h
      cases heq
      rw [ih hcut]
      simp

/-! ## Hexadecimal -/

/-- A lowercase hexadecimal digit. -/
def hexDigit (n : Nat) : UInt8 := if n < 10 then UInt8.ofNat (48 + n) else UInt8.ofNat (87 + n)

/-- `hex.EncodeToString`. -/
def hexEncode (b : Bytes) : Bytes :=
  b.flatMap fun x => [hexDigit (x.toNat / 16), hexDigit (x.toNat % 16)]

theorem hexDigit_injective {m n : Nat} (hm : m < 16) (hn : n < 16)
    (h : hexDigit m = hexDigit n) : m = n := by
  have hall : ∀ m : Fin 16, ∀ n : Fin 16, hexDigit m = hexDigit n → m = n := by decide
  exact congrArg Fin.val (hall ⟨m, hm⟩ ⟨n, hn⟩ h)

theorem hexEncode_injective : Function.Injective hexEncode := by
  intro a b h
  induction a generalizing b with
  | nil =>
    cases b with
    | nil => rfl
    | cons y b => simp [hexEncode] at h
  | cons x a ih =>
    cases b with
    | nil => simp [hexEncode] at h
    | cons y b =>
      simp only [hexEncode, List.flatMap_cons, List.cons_append, List.nil_append,
        List.cons.injEq] at h
      obtain ⟨hhigh, hlow, hrest⟩ := h
      have hx := x.toNat_lt
      have hy := y.toNat_lt
      have hdiv := hexDigit_injective (by omega) (by omega) hhigh
      have hmod := hexDigit_injective (by omega) (by omega) hlow
      have hxy : x = y := by
        apply UInt8.toNat_inj.mp
        omega
      rw [hxy, ih hrest]

/-! ## Base64 -/

/-- The URL-safe base64 alphabet. -/
def base64URLDigit (n : Nat) : UInt8 :=
  if n < 26 then UInt8.ofNat (65 + n)
  else if n < 52 then UInt8.ofNat (71 + n)
  else if n < 62 then UInt8.ofNat (n - 4)
  else if n = 62 then 45 else 95

/-- `base64.RawURLEncoding.EncodeToString`. -/
def base64RawURL : Bytes → Bytes
  | a :: b :: c :: rest =>
    let n := a.toNat * 65536 + b.toNat * 256 + c.toNat
    base64URLDigit (n / 262144) :: base64URLDigit (n / 4096 % 64) ::
      base64URLDigit (n / 64 % 64) :: base64URLDigit (n % 64) :: base64RawURL rest
  | [a, b] =>
    let n := a.toNat * 256 + b.toNat
    [base64URLDigit (n / 1024), base64URLDigit (n / 16 % 64), base64URLDigit (n % 16 * 4)]
  | [a] => [base64URLDigit (a.toNat / 4), base64URLDigit (a.toNat % 4 * 16)]
  | [] => []

end Bytes
