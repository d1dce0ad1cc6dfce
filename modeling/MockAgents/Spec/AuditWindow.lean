import Mathlib.Data.List.Nodup
import MockAgents.Audit.Store

/-!
# The time window of the audit log

`List` compares the stored text of a time with the text of `Since`. It returns the latest
matching events that are not before `Since`, for events at the times of a set, exactly if for
each of these times the two texts are in the order of time, and what is returned has a year of
four digits, since other years are not read back. The texts of two times in one second are not
in order where one fraction continues the other, such as a whole second and any time within it.
-/

namespace MockAgents.Audit

/-! ## What the window is -/

/-- An event matches a query: its kind, actor and tenant, and it is not before `Since`. -/
def Query.admits (q : Query) (e : Event) : Bool :=
  (q.kind.text = "" ∨ e.kind.text = q.kind.text) &&
  (q.actor = "" ∨ e.actor.name = q.actor) &&
  (q.actorTenant = "" ∨ e.actor.tenantID = q.actorTenant) &&
  (q.since.isZero || (compare e.timestamp.instant q.since.instant).isGE)

/-- The latest matching events, newest first. -/
def latest (events : List Event) (q : Query) : List Event :=
  (events.reverse.filter q.admits).take q.clampedLimit

/-- A time is listed right by queries with some `Since`: its text is in order with that of
    `Since`, and has a year of four digits unless the time is before `Since`. -/
structure Chronological (since t : Instant) : Prop where
  ordered : since ≠ Instant.zero → Instant.TextOrdered t since
  readable : since = Instant.zero ∨ (compare t since).isGE = true → 0 ≤ t.year ∧ t.year ≤ 9999

/-! ## The table -/

/-- The rows are those of the events, whose ids count them. -/
structure Holds (T : Instant → Prop) (s : Store) (events : List Event) : Prop where
  rows : s.rows = events.map Event.row
  times : ∀ e ∈ events, T e.timestamp.instant ∧ e.timestamp.offset = 0

variable {e : Event} {s : Store} {events : List Event}

theorem Holds.append {T : Instant → Prop} {s' : Store} {c : AppendCall} (h : Holds T s events)
    (hc : T c.instant) (happend : s.append c.now c.event = some (s', e)) :
    Holds T s' (events ++ [e]) := by
  rw [Store.append] at happend
  split at happend
  · cases happend
    refine ⟨?_, List.forall_mem_append.mpr ⟨h.times, List.forall_mem_singleton.mpr ⟨?_, rfl⟩⟩⟩
    · show s.rows ++ [_] = _
      rw [List.map_append, ← h.rows]
      rfl
    · have hinstant : c.instant = (if c.event.timestamp.isZero then c.now
          else c.event.timestamp).utc.instant := by
        rw [AppendCall.instant]
        split <;> rfl
      exact hinstant ▸ hc
  · cases happend

theorem Holds.appendAll {T : Instant → Prop} {calls : List AppendCall} {s : Store}
    {events : List Event} (h : Holds T s events) (hcalls : ∀ c ∈ calls, T c.instant) :
    Holds T (appendAll calls (s, events)).1 (appendAll calls (s, events)).2 := by
  induction calls generalizing s events with
  | nil => exact h
  | cons c calls ih =>
    have hrest : ∀ c' ∈ calls, T c'.instant := fun c' hc' => hcalls c' (List.mem_cons_of_mem _ hc')
    rw [Audit.appendAll]
    split
    · rename_i s' e happend
      exact ih (h.append (hcalls c (List.mem_cons_self ..)) happend) hrest
    · exact ih h hrest

theorem Store.mergeSort_rows (s : Store) (p : Row → Bool) :
    (s.rows.filter p).mergeSort (fun a b => decide (b.id ≤ a.id)) = (s.rows.filter p).reverse := by
  have hids : (s.rows.map (·.id)).Pairwise (· < ·) := by
    rw [s.ids]
    exact List.pairwise_lt_range'
  have hinj := List.inj_on_of_nodup_map (hids.imp Nat.ne_of_lt)
  have hmem : ∀ {a}, a ∈ s.rows.filter p → a ∈ s.rows := fun h => (List.mem_filter.mp h).1
  have hdesc : (s.rows.filter p).reverse.Pairwise fun a b => b.id ≤ a.id := by
    rw [List.pairwise_reverse]
    exact ((List.pairwise_map.mp hids).filter p).imp Nat.le_of_lt
  refine List.Perm.eq_of_pairwise ?_ ?_ hdesc
    ((List.mergeSort_perm _ _).trans (List.reverse_perm _).symm)
  · intro a b ha hb hab hba
    exact hinj (hmem (List.mem_mergeSort.mp ha)) (hmem (List.mem_reverse.mp hb))
      (Nat.le_antisymm hba hab)
  · refine (List.pairwise_mergeSort ?_ ?_ (s.rows.filter p)).imp of_decide_eq_true
    · simp only [decide_eq_true_eq] at *
      omega
    · intro a b
      simp only [Bool.or_eq_true, decide_eq_true_eq]
      omega

/-! ## One event -/

variable {q : Query}

theorem selects_row (h : Chronological q.since.instant e.timestamp.instant) :
    q.selects e.row = q.admits e := by
  have htime : (q.since.isZero || (compare e.row.timestamp q.since.utc.instant.text).isGE) =
      (q.since.isZero || (compare e.timestamp.instant q.since.instant).isGE) := by
    by_cases hzero : q.since.instant = Instant.zero
    · simp [ZonedTime.isZero, hzero]
    · have hordered := (Instant.isGE_compare_text_iff _ _).mpr (h.ordered hzero)
      rw [show e.row.timestamp = e.timestamp.instant.text from rfl,
        show q.since.utc.instant = q.since.instant from rfl, hordered]
  rw [Query.selects, htime]
  rfl

/-- An event comes out of the table as it went in exactly if its year has four digits. -/
theorem scanEvent_row_iff (hoffset : e.timestamp.offset = 0) :
    scanEvent e.row = e ↔
      0 ≤ e.timestamp.instant.year ∧ e.timestamp.instant.year ≤ 9999 := by
  obtain ⟨id, ⟨instant, offset⟩, kind, actor, target, details⟩ := e
  obtain rfl : offset = 0 := hoffset
  constructor
  · intro h
    by_contra hyear
    have hinstant := congrArg (fun e => e.timestamp.instant) h
    simp only [scanEvent, Event.row, Instant.parse_text_eq_none hyear, Option.map_none,
      Option.getD_none] at hinstant
    subst hinstant
    exact hyear (show 0 ≤ Instant.zero.year ∧ Instant.zero.year ≤ 9999 by decide)
  · intro hyear
    simp [scanEvent, Event.row, Instant.parse_text hyear]

/-! ## Whole tables -/

theorem Holds.list_eq (h : Holds (Chronological q.since.instant) s events) :
    s.list q = latest events q := by
  have hfilter : s.rows.filter q.selects = (events.filter q.admits).map Event.row := by
    rw [h.rows, List.filter_map]
    congr 1
    exact List.filter_congr fun e he => selects_row (h.times e he).1
  rw [Store.list, s.mergeSort_rows, hfilter, ← List.map_reverse, ← List.map_take, List.map_map,
    latest, ← List.filter_reverse]
  -- what is listed is read back
  rw [List.map_congr_left (g := id), List.map_id]
  intro e he
  obtain ⟨hmem, hadmits⟩ := List.mem_filter.mp (List.mem_of_mem_take he)
  obtain ⟨htime, hoffset⟩ := h.times e (List.mem_reverse.mp hmem)
  refine (scanEvent_row_iff hoffset).mpr (htime.readable ?_)
  simp only [Query.admits, Bool.and_eq_true, Bool.or_eq_true] at hadmits
  exact hadmits.2.imp_left of_decide_eq_true

def AppendCall.at (t : Instant) : AppendCall :=
  ⟨⟨t, 0⟩, { timestamp := ⟨t, 0⟩, kind := .tenantCreated }⟩

theorem AppendCall.instant_at (t : Instant) : (AppendCall.at t).instant = t := by
  rw [instant]
  split <;> rfl

theorem appendAll_at (t : Instant) : ∃ s e, appendAll [AppendCall.at t] ({}, []) = (s, [e]) ∧
    s.rows = [e.row] ∧ e.timestamp = ⟨t, 0⟩ := by
  refine ⟨_, _, rfl, rfl, ?_⟩
  show (if (ZonedTime.mk t 0).isZero then ZonedTime.mk t 0 else ⟨t, 0⟩).utc = ⟨t, 0⟩
  split <;> rfl

/-- A single event is listed right by the query with no other condition than `Since` only if its
    time is. -/
theorem chronological_of_single {since : ZonedTime} {t : Instant}
    (h : (appendAll [AppendCall.at t] ({}, [])).1.list { since := since } =
      latest (appendAll [AppendCall.at t] ({}, [])).2 { since := since }) :
    Chronological since.instant t := by
  obtain ⟨s, e, happend, hrows, htime⟩ := appendAll_at t
  have hselects : Query.selects { since := since } e.row =
      (since.isZero || (compare t.text since.instant.text).isGE) := by
    simp [Query.selects, Event.row, htime, EventKind.text, ZonedTime.utc]
  have hadmits : Query.admits { since := since } e =
      (since.isZero || (compare t since.instant).isGE) := by
    simp [Query.admits, htime, EventKind.text]
  have hlist : s.list { since := since } = if Query.selects { since := since } e.row then
      [scanEvent e.row] else [] := by
    rw [Store.list, s.mergeSort_rows, hrows, List.filter_cons]
    split <;> rfl
  have hlatest : latest [e] { since := since } = if Query.admits { since := since } e then
      [e] else [] := by
    rw [latest, List.reverse_singleton, List.filter_cons, List.filter_nil]
    split <;> rfl
  rw [happend, hlist, hlatest, hselects, hadmits] at h
  constructor
  · intro hzero
    have hnonzero : since.isZero = false := decide_eq_false hzero
    rw [← Instant.isGE_compare_text_iff]
    cases htext : (compare t.text since.instant.text).isGE <;>
      cases horder : (compare t since.instant).isGE <;> simp_all
  · intro hnot
    have hadmitted : (since.isZero || (compare t since.instant).isGE) = true := by
      rw [Bool.or_eq_true]
      exact hnot.imp_left decide_eq_true
    rw [if_pos hadmitted] at h
    split at h
    · have hscan := (scanEvent_row_iff (by rw [htime])).mp (List.cons.inj h).1
      rwa [htime] at hscan
    · cases h

/-- `List` returns the latest matching events, for events at the times of `T` and queries with
    some `Since`, exactly if all these times are listed right. -/
theorem list_eq_latest_iff (T : Instant → Prop) (since : ZonedTime) :
    (∀ (calls : List AppendCall) (q : Query), (∀ c ∈ calls, T c.instant) → q.since = since →
      (appendAll calls ({}, [])).1.list q = latest (appendAll calls ({}, [])).2 q) ↔
    ∀ t, T t → Chronological since.instant t := by
  constructor
  · intro h t ht
    refine chronological_of_single (h _ { since := since } (fun c hc => ?_) rfl)
    rw [List.mem_singleton.mp hc, AppendCall.instant_at]
    exact ht
  · rintro h calls q hcalls rfl
    have hempty : Holds (Chronological q.since.instant) {} [] := ⟨rfl, by simp⟩
    exact (hempty.appendAll fun c hc => h _ (hcalls c hc)).list_eq

/-- Some nanoseconds after ten o'clock on the first of January 2026 in UTC. -/
def afterTen (nanos : Nat) : Instant :=
  ⟨63902858400 + nanos / 10 ^ 9, nanos % 10 ^ 9, Nat.mod_lt _ (by decide)⟩

/-- Events a quarter, three quarters and a whole second after ten, in three zones. -/
def quarterSeconds : List AppendCall :=
  [(250000000, 0), (750000000, 3600), (1000000000, -18000)].map fun (nanos, offset) =>
    ⟨⟨afterTen 0, 0⟩, { timestamp := ⟨afterTen nanos, offset⟩, kind := .authDenied }⟩

theorem quarterSeconds_listed :
    (appendAll quarterSeconds ({}, [])).1.list { since := ⟨afterTen 500000000, 7200⟩ } =
      latest (appendAll quarterSeconds ({}, [])).2 { since := ⟨afterTen 500000000, 7200⟩ } ∧
    (latest (appendAll quarterSeconds ({}, [])).2
      { since := ⟨afterTen 500000000, 7200⟩ }).map (·.id) = [3, 2] := by
  refine ⟨(list_eq_latest_iff (fun t => t ∈ [250000000, 750000000, 1000000000].map afterTen)
    ⟨afterTen 500000000, 7200⟩).mpr ?_ quarterSeconds _ (by decide) rfl, by decide⟩
  have hall : ∀ t ∈ [250000000, 750000000, 1000000000].map afterTen,
      (compare (yearText t.year) (yearText (afterTen 500000000).year) =
        compare t.year (afterTen 500000000).year ∧
      (t.sec = (afterTen 500000000).sec →
        ¬ Time.Continues (Time.nanosText t.nanos) (Time.nanosText (afterTen 500000000).nanos))) ∧
      0 ≤ t.year ∧ t.year ≤ 9999 := by decide
  intro t ht
  obtain ⟨⟨hyears, hfractions⟩, hyear⟩ := hall t ht
  exact ⟨fun _ => ⟨hyears, hfractions⟩, fun _ => hyear⟩

/-- An event half a second after ten is not listed by a query since ten. -/
theorem halfSecond_not_listed :
    (appendAll [AppendCall.at (afterTen 500000000)] ({}, [])).1.list { since := ⟨afterTen 0, 0⟩ } =
      [] ∧
    (latest (appendAll [AppendCall.at (afterTen 500000000)] ({}, [])).2
      { since := ⟨afterTen 0, 0⟩ }).map (fun e => (e.id, e.timestamp.instant)) =
      [(1, afterTen 500000000)] := by
  constructor
  · rw [Store.list, Store.mergeSort_rows]
    decide
  · decide

end MockAgents.Audit
