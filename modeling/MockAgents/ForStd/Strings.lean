import Mathlib.Data.List.Basic
import Mathlib.Data.List.Infix
import Mathlib.Data.String.Basic

/-!
# Substrings and separators

Go's `strings.Contains` and `strings.ReplaceAll`, and how a separator that a prefix does not
contain makes a concatenation readable again.
-/

/-- Go's `strings.Contains`. -/
def hasSubstr (s sub : String) : Bool := decide (sub.toList <:+: s.toList)

/-- The characters with each occurrence of `old` replaced; the next `skip` characters belong
    to one that was. -/
def replaceFrom (old new : List Char) : (skip : Nat) → List Char → List Char
  | _, [] => []
  | skip + 1, _ :: s => replaceFrom old new skip s
  | 0, c :: s =>
    if old.isPrefixOf (c :: s) then new ++ replaceFrom old new (old.length - 1) s
    else c :: replaceFrom old new 0 s

/-- Go's `strings.ReplaceAll`, for an `old` that is not empty. -/
def replaceAllStr (s old new : String) : String :=
  String.ofList (replaceFrom old.toList new.toList 0 s.toList)

def NulFree (s : String) : Prop := '\x00' ∉ s.toList

instance (s : String) : Decidable (NulFree s) :=
  inferInstanceAs (Decidable ('\x00' ∉ s.toList))

private theorem sep_suffix {α : Type} {sep : α} {c x y : List α} (hc : sep ∉ c)
    (h : sep :: x = c ++ sep :: y) : c = [] ∧ x = y := by
  cases c with
  | nil => exact ⟨rfl, (List.cons.inj h).2⟩
  | cons d c =>
    obtain ⟨rfl, _⟩ := List.cons.inj h
    exact absurd List.mem_cons_self hc

/-- Two concatenations around a separator that is in neither left part agree only if
    left and right parts agree. -/
theorem List.append_sep_inj {α : Type} {sep : α} {a b x y : List α} (ha : sep ∉ a)
    (hb : sep ∉ b) (h : a ++ sep :: x = b ++ sep :: y) : a = b ∧ x = y := by
  obtain ⟨c, hc, hrest⟩ | ⟨c, hc, hrest⟩ := List.append_eq_append_iff.mp h
  · -- `b` is longer by `c`, which starts with the separator unless it is empty
    have hcsep : sep ∉ c := fun hmem => hb (by rw [hc]; exact List.mem_append_right a hmem)
    obtain ⟨hnil, hxy⟩ := sep_suffix hcsep hrest
    exact ⟨by rw [hc, hnil, List.append_nil], hxy⟩
  · have hcsep : sep ∉ c := fun hmem => ha (by rw [hc]; exact List.mem_append_right b hmem)
    obtain ⟨hnil, hxy⟩ := sep_suffix hcsep hrest
    exact ⟨by rw [hc, hnil, List.append_nil], hxy.symm⟩

theorem String.append_sep_inj {sep : Char} {a b x y : String} (ha : sep ∉ a.toList)
    (hb : sep ∉ b.toList)
    (h : a ++ String.singleton sep ++ x = b ++ String.singleton sep ++ y) :
    a = b ∧ x = y := by
  have hl : a.toList ++ sep :: x.toList = b.toList ++ sep :: y.toList := by
    have hlist := congrArg String.toList h
    simpa [String.toList_append] using hlist
  obtain ⟨h₁, h₂⟩ := List.append_sep_inj ha hb hl
  exact ⟨String.toList_inj.mp h₁, String.toList_inj.mp h₂⟩
