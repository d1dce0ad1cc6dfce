import MockAgents.State.Store

/-!
# The store as a map from keys to sessions

For a caller that uses one session at a time the pointers do not matter: the store is a
map from keys to sessions (`view`), and obtaining a session and changing it changes the
map at its key only.
-/

namespace MockAgents.MemoryStore

def view (st : MemoryStore) (key : String) : Option Session :=
  (st.sessions.lookup key).map st.heap

/-- Stored pointers are allocated, and no two keys share one. -/
structure Separate (st : MemoryStore) : Prop where
  allocated : ∀ key p, st.sessions.lookup key = some p → p < st.next
  inj : ∀ key key' p, st.sessions.lookup key = some p → st.sessions.lookup key' = some p →
    key = key'

/-- The session that a caller gets: the stored one unless it is expired, else a new
    one. -/
def current (st : MemoryStore) (key agentName : String) (checkAt createAt : Int) : Session :=
  match st.view key with
  | some s =>
    if s.isExpired checkAt then Session.newSession key agentName st.ttl createAt else s
  | none => Session.newSession key agentName st.ttl createAt

variable {st : MemoryStore}

theorem current_congr {st' : MemoryStore} {key : String} (hview : st.view key = st'.view key)
    (httl : st.ttl = st'.ttl) (agentName : String) (checkAt createAt : Int) :
    st.current key agentName checkAt createAt = st'.current key agentName checkAt createAt := by
  rw [current, current, hview, httl]

theorem separate_newMemoryStore (ttl : Int) : (newMemoryStore ttl).Separate where
  allocated := nofun
  inj := fun _ _ _ h => nomatch h

section

variable (h : st.Separate)
include h

theorem Separate.erase (id : String) :
    { st with sessions := st.sessions.erase id }.Separate where
  allocated key p hp := h.allocated key p (GoMap.lookup_of_lookup_erase hp)
  inj key key' p hp hp' :=
    h.inj key key' p (GoMap.lookup_of_lookup_erase hp) (GoMap.lookup_of_lookup_erase hp')

private theorem Separate.create (id agentName : String) (now : Int) :
    (st.create id agentName now).1.Separate ∧
      (st.create id agentName now).1.sessions.lookup id = some st.next ∧
      (st.create id agentName now).1.heap st.next =
        Session.newSession id agentName st.ttl now ∧
      ∀ key, key ≠ id → (st.create id agentName now).1.view key = st.view key := by
  have hlookup : ∀ key, (st.create id agentName now).1.sessions.lookup key =
      if key = id then some st.next else st.sessions.lookup key :=
    fun key => GoMap.lookup_insert_eq st.sessions id key st.next
  refine ⟨⟨?_, ?_⟩, by rw [hlookup, if_pos rfl], Function.update_self _ _ _, ?_⟩
  · intro key p hp
    rw [hlookup] at hp
    split at hp
    · rw [← Option.some.inj hp]
      exact Nat.lt_succ_self _
    · exact Nat.lt_succ_of_lt (h.allocated key p hp)
  · intro key key' p hp hp'
    rw [hlookup] at hp hp'
    -- the new address is not in use, so no other key can have it
    split at hp <;> split at hp'
    · rename_i hk hk'
      rw [hk, hk']
    · exact absurd (h.allocated key' p hp') (by rw [← Option.some.inj hp]; exact lt_irrefl _)
    · exact absurd (h.allocated key p hp) (by rw [← Option.some.inj hp']; exact lt_irrefl _)
    · exact h.inj key key' p hp hp'
  · intro key hkey
    rw [view, hlookup, if_neg hkey, view]
    cases hp : st.sessions.lookup key with
    | none => rfl
    | some p =>
      have hne : p ≠ st.next := Nat.ne_of_lt (h.allocated key p hp)
      exact congrArg some (Function.update_of_ne hne _ _)

private theorem Separate.getOrCreate (key agentName : String) (checkAt createAt : Int) :
    (st.getOrCreate key agentName checkAt createAt).1.Separate ∧
      (st.getOrCreate key agentName checkAt createAt).1.sessions.lookup key =
        some (st.getOrCreate key agentName checkAt createAt).2 ∧
      (st.getOrCreate key agentName checkAt createAt).1.heap
          (st.getOrCreate key agentName checkAt createAt).2 =
        st.current key agentName checkAt createAt ∧
      ∀ key', key' ≠ key →
        (st.getOrCreate key agentName checkAt createAt).1.view key' = st.view key' := by
  unfold MemoryStore.getOrCreate current
  cases hp : st.sessions.lookup key with
  | none =>
    simp only [view, hp, Option.map_none]
    exact h.create key agentName createAt
  | some p =>
    simp only [view, hp, Option.map_some]
    split
    · -- an expired session is dropped and replaced
      obtain ⟨hsep, hkey, hheap, hview⟩ := (h.erase key).create key agentName createAt
      refine ⟨hsep, hkey, hheap, fun key' hne => (hview key' hne).trans ?_⟩
      simp only [view, GoMap.lookup_erase_eq, if_neg hne]
    · exact ⟨h, hp, rfl, fun _ _ => rfl⟩

/-- The session that `GetOrCreate` hands out. -/
theorem getOrCreate_heap (key agentName : String) (checkAt createAt : Int) :
    (st.getOrCreate key agentName checkAt createAt).1.heap
        (st.getOrCreate key agentName checkAt createAt).2 =
      st.current key agentName checkAt createAt :=
  (h.getOrCreate key agentName checkAt createAt).2.2.1

/-- Changing a session in place changes the view at its key only. -/
private theorem Separate.view_update {key : String} {p : SessionPtr}
    (hp : st.sessions.lookup key = some p) (f : Session → Session) (key' : String) :
    (st.update p f).view key' = if key' = key then some (f (st.heap p)) else st.view key' := by
  unfold view update
  split
  · rename_i hkey
    rw [hkey, hp]
    exact congrArg some (Function.update_self _ _ _)
  · rename_i hkey
    cases hp' : st.sessions.lookup key' with
    | none => simp
    | some q =>
      have hne : q ≠ p := fun hqp => hkey (h.inj key' key p (hqp ▸ hp') hp)
      exact congrArg some (Function.update_of_ne hne _ _)

theorem view_turn (key agentName : String) (checkAt createAt : Int) (f : Session → Session)
    (key' : String) :
    ((st.getOrCreate key agentName checkAt createAt).1.update
        (st.getOrCreate key agentName checkAt createAt).2 f).view key' =
      if key' = key then some (f (st.current key agentName checkAt createAt))
      else st.view key' := by
  obtain ⟨hsep, hkey, hheap, hview⟩ := h.getOrCreate key agentName checkAt createAt
  rw [hsep.view_update hkey, hheap]
  split
  · rfl
  · rename_i hne
    exact hview key' hne

theorem Separate.turn (key agentName : String) (checkAt createAt : Int) (f : Session → Session) :
    ((st.getOrCreate key agentName checkAt createAt).1.update
      (st.getOrCreate key agentName checkAt createAt).2 f).Separate := by
  have hsep := (h.getOrCreate key agentName checkAt createAt).1
  exact ⟨hsep.allocated, hsep.inj⟩

end

/-- No caller changes the TTL. -/
theorem getOrCreate_ttl (st : MemoryStore) (key agentName : String) (checkAt createAt : Int) :
    (st.getOrCreate key agentName checkAt createAt).1.ttl = st.ttl := by
  unfold getOrCreate
  cases st.sessions.lookup key with
  | none => rfl
  | some p => simp only; split <;> rfl

end MockAgents.MemoryStore
