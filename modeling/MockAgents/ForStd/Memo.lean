import MockAgents.ForStd.GoMap

/-!
# Memoized functions

A cache in front of a pure function. The type carries that every entry is a value of
the function, so a cache with a wrong entry cannot be built and reading through a cache
is the function itself, whatever was read before.

`Memo f` keeps every value; `MemoOk f` keeps only the successes of a fallible function.
-/

variable {K V ε : Type} [DecidableEq K]

/-- A cache of values of `f`. -/
structure Memo (f : K → V) where
  entries : GoMap K V
  sound : ∀ k v, entries.lookup k = some v → v = f k

namespace Memo

variable {f : K → V}

def empty (f : K → V) : Memo f := ⟨∅, nofun⟩

/-- Read a value: from the cache if it is there, else compute and store it. -/
def load (m : Memo f) (k : K) : Memo f × V :=
  match m.entries.lookup k with
  | some v => (m, v)
  | none =>
    ({ entries := m.entries.insert k (f k)
       sound := by
        intro k' v hv
        rw [GoMap.lookup_insert_eq] at hv
        split at hv
        · rename_i hk
          rw [← Option.some.inj hv, hk]
        · exact m.sound k' v hv },
      f k)

@[simp] theorem load_snd (m : Memo f) (k : K) : (m.load k).2 = f k := by
  unfold load
  split
  · rename_i v hv
    exact m.sound k v hv
  · rfl

end Memo

/-- A cache of successful values of `f`. -/
structure MemoOk (f : K → Except ε V) where
  entries : GoMap K V
  sound : ∀ k v, entries.lookup k = some v → f k = .ok v

namespace MemoOk

variable {f : K → Except ε V}

def empty (f : K → Except ε V) : MemoOk f := ⟨∅, nofun⟩

/-- Read a value: from the cache if it is there, else compute it and store a success. -/
def load (m : MemoOk f) (k : K) : MemoOk f × Except ε V :=
  match m.entries.lookup k with
  | some v => (m, .ok v)
  | none =>
    match h : f k with
    | .error err => (m, .error err)
    | .ok v =>
      ({ entries := m.entries.insert k v
         sound := by
          intro k' v' hv
          rw [GoMap.lookup_insert_eq] at hv
          split at hv
          · rename_i hk
            rw [← Option.some.inj hv, hk, h]
          · exact m.sound k' v' hv },
        .ok v)

@[simp] theorem load_snd (m : MemoOk f) (k : K) : (m.load k).2 = f k := by
  unfold load
  split
  · rename_i v hv
    exact (m.sound k v hv).symm
  · split
    · rename_i h
      exact h.symm
    · rename_i h
      exact h.symm

end MemoOk
