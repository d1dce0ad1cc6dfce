import Mathlib.Data.List.Perm.Basic

/-!
# Goroutines and channels

A buffered channel is the list of values it holds. A send in a `select` with a `default` case
finds room, finds the buffer full, or panics because the channel is closed; closing a channel
twice panics as well. The bound on the buffer is a field, so that no proof needs to show it.

The goroutines of a system are kept in a list. `List.exists_perm_set` says what a step of one
of them does to the list as a whole, up to order, which is all that counts and sums look at.
-/

universe u v

/-- A buffered channel. -/
structure Chan (α : Type u) where
  buf : List α
  cap : Nat
  closed : Bool
  le_cap : buf.length ≤ cap
  deriving DecidableEq

namespace Chan

variable {α : Type u}

/-- `make(chan T, cap)`. -/
def make (α : Type u) (cap : Nat) : Chan α := ⟨[], cap, false, Nat.zero_le cap⟩

/-- What comes of a send in a `select` with a `default` case. -/
inductive Sent (α : Type u) where
  | sent (c : Chan α)
  | full
  | panic

/-- A send in a `select` with a `default` case. -/
def trySend (c : Chan α) (a : α) : Sent α :=
  if c.closed then .panic
  else if h : c.buf.length < c.cap then
    .sent { c with buf := c.buf ++ [a], le_cap := by rw [List.length_append]; exact h }
  else .full

inductive Received (α : Type u) where
  | value (a : α) (c : Chan α)
  /-- The channel is closed, and nothing is left in it. -/
  | closed
  | blocked

def receive : Chan α → Received α
  | ⟨[], _, true, _⟩ => .closed
  | ⟨[], _, false, _⟩ => .blocked
  | ⟨a :: buf, cap, closed, h⟩ => .value a ⟨buf, cap, closed, Nat.le_of_succ_le h⟩

/-- `close`; `none` is a panic. -/
def close (c : Chan α) : Option (Chan α) :=
  if c.closed then none else some { c with closed := true }

@[simp] theorem buf_make (cap : Nat) : (make α cap).buf = [] := rfl

variable {c c' : Chan α} {a : α}

/-- A send that went through. -/
theorem sent_of_trySend (h : c.trySend a = .sent c') :
    c.closed = false ∧ c.buf.length < c.cap ∧ c'.buf = c.buf ++ [a] ∧ c'.cap = c.cap ∧
      c'.closed = false := by
  simp only [trySend] at h
  split at h
  · cases h
  · rename_i hopen
    rw [Bool.not_eq_true] at hopen
    split at h
    · rename_i hroom
      cases h
      exact ⟨hopen, hroom, rfl, rfl, hopen⟩
    · cases h

/-- A send that found the buffer full. -/
theorem full_of_trySend (h : c.trySend a = .full) : c.closed = false ∧ c.buf.length = c.cap := by
  simp only [trySend] at h
  split at h
  · cases h
  · rename_i hopen
    split at h
    · cases h
    · have hle := c.le_cap
      exact ⟨by simpa using hopen, by omega⟩

theorem closed_of_trySend (h : c.trySend a = .panic) : c.closed = true := by
  simp only [trySend] at h
  split at h
  · assumption
  · split at h <;> cases h

/-- A receive that got a value. -/
theorem value_of_receive (h : c.receive = .value a c') :
    c.buf = a :: c'.buf ∧ c'.cap = c.cap ∧ c'.closed = c.closed := by
  obtain ⟨buf, cap, closed, hle⟩ := c
  cases buf with
  | nil => cases closed <;> cases h
  | cons b buf =>
    cases h
    exact ⟨rfl, rfl, rfl⟩

theorem closed_of_receive (h : c.receive = .closed) : c.buf = [] ∧ c.closed = true := by
  obtain ⟨buf, cap, closed, hle⟩ := c
  cases buf with
  | nil =>
    cases closed
    · cases h
    · exact ⟨rfl, rfl⟩
  | cons b buf => cases h

theorem eq_of_close (h : c.close = some c') :
    c.closed = false ∧ c'.buf = c.buf ∧ c'.cap = c.cap ∧ c'.closed = true := by
  simp only [close] at h
  split at h
  · cases h
  · rename_i hopen
    cases h
    exact ⟨by simpa using hopen, rfl, rfl, rfl⟩

theorem closed_of_close (h : c.close = none) : c.closed = true := by
  simp only [close] at h
  split at h
  · assumption
  · cases h

end Chan

namespace List

variable {α : Type u} {l : List α} {k : Nat} {a : α}

/-- One goroutine moves from `a` to another place, and the others stay where they are. -/
theorem exists_perm_set (h : l[k]? = some a) :
    ∃ rest, l ~ a :: rest ∧ ∀ b, l.set k b ~ b :: rest := by
  obtain ⟨hk, rfl⟩ := getElem?_eq_some_iff.mp h
  exact ⟨l.eraseIdx k, (getElem_cons_eraseIdx_perm hk).symm, set_perm_cons_eraseIdx hk⟩

variable {b : α}

/-- What the goroutines hold together stays the same if the one that moves holds the same. -/
theorem flatMap_set_of_eq {β : Type v} (f : α → List β) (h : l[k]? = some a) (hf : f b = f a) :
    (l.set k b).flatMap f = l.flatMap f := by
  obtain ⟨hk, rfl⟩ := getElem?_eq_some_iff.mp h
  have hmap : (l.set k b).map f = l.map f := by
    rw [map_set, hf, ← getElem_map f (h := by simpa using hk), set_getElem_self]
  rw [flatMap_def, hmap, ← flatMap_def]

variable {j : Nat}

/-- A goroutine in a list where one has moved. -/
theorem getElem?_set_cases (h : (l.set k b)[j]? = some a) :
    (j = k ∧ a = b) ∨ (j ≠ k ∧ l[j]? = some a) := by
  rw [getElem?_set] at h
  split at h
  · rename_i hkj
    split at h
    · cases h
      exact .inl ⟨hkj.symm, rfl⟩
    · cases h
  · rename_i hkj
    exact .inr ⟨fun hjk => hkj hjk.symm, h⟩

theorem getElem?_append_of_some {l' : List α} (h : l[j]? = some a) : (l ++ l')[j]? = some a := by
  rw [getElem?_append_left (getElem?_eq_some_iff.mp h).1, h]

/-- A goroutine in a list where one has started. -/
theorem getElem?_snoc_cases (h : (l ++ [b])[j]? = some a) :
    (j = l.length ∧ a = b) ∨ l[j]? = some a := by
  rw [getElem?_append] at h
  split at h
  · exact .inr h
  · obtain ⟨hj, hab⟩ := getElem?_eq_some_iff.mp h
    rw [length_singleton] at hj
    refine .inl ⟨by omega, ?_⟩
    simpa using hab.symm

end List

