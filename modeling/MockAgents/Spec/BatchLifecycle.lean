import MockAgents.Adapter.Batches

/-!
# The life of a batch

The status of a batch is computed on every read. Whatever order its reads and cancellations come
in, as long as their times do not decrease, it is in progress for a while and then keeps one
terminal status.
-/

namespace MockAgents

inductive BatchCall where
  | render (now : Int)
  | cancel (now : Int)

def BatchCall.now : BatchCall → Int
  | .render now | .cancel now => now

/-- What a call returns. -/
inductive BatchAnswer where
  | rendered (b : Batch)
  | cancelled (status : BatchStatus) (terminal : Bool)

namespace BatchAnswer

def status : BatchAnswer → BatchStatus
  | rendered b => b.status
  | cancelled status _ => status

/-- It is the answer to a cancellation that took effect. -/
def succeeded : BatchAnswer → Bool
  | rendered _ => false
  | cancelled _ terminal => !terminal

end BatchAnswer

namespace BatchState

def call (st : BatchState) : BatchCall → BatchState × BatchAnswer
  | .render now => (st, .rendered (st.render now))
  | .cancel now => ((st.cancel now).1, .cancelled (st.cancel now).2.1 (st.cancel now).2.2)

/-- The answers to calls that are made one after the other. -/
def answers (st : BatchState) : List BatchCall → List BatchAnswer
  | [] => []
  | c :: calls => (st.call c).2 :: (st.call c).1.answers calls

/-- The status that a read would observe. -/
def statusAt (st : BatchState) (now : Int) : BatchStatus := (st.render now).status

variable {st : BatchState} {calls : List BatchCall}

/-- A terminal status is kept. -/
theorem statusAt_of_le {now later : Int} (hle : now ≤ later)
    (hend : st.statusAt now ≠ .inProgress) : st.statusAt later = st.statusAt now := by
  unfold statusAt render at *
  have hmono : timeSub now st.createdAt ≤ timeSub later st.createdAt := by
    unfold timeSub
    omega
  by_cases hcancel : st.cancelled = true
  · simp [hcancel]
  · by_cases hnow : timeSub now st.createdAt < st.delay
    · simp [hcancel, hnow] at hend
    · have hlater : ¬ timeSub later st.createdAt < st.delay := by omega
      simp [hnow, hlater]

/-- What a call can do: observe the status, or cancel a batch that is in progress. -/
theorem call_cases (st : BatchState) (c : BatchCall) :
    ((st.call c).1 = st ∧ (st.call c).2.status = st.statusAt c.now ∧
      (st.call c).2.succeeded = false) ∨
    (st.statusAt c.now = .inProgress ∧ (st.call c).2.status = .cancelled ∧
      ∀ now, (st.call c).1.statusAt now = .cancelled) := by
  cases c with
  | render now => exact .inl ⟨rfl, rfl, rfl⟩
  | cancel now =>
    by_cases hcancel : st.cancelled = true
    · left
      simp [call, cancel, statusAt, render, BatchAnswer.status, BatchAnswer.succeeded, hcancel]
    · by_cases hnow : timeSub now st.createdAt < st.delay
      · simp [call, cancel, statusAt, render, BatchAnswer.status, BatchCall.now, hcancel, hnow,
          Int.not_le.mpr hnow]
      · left
        simp [call, cancel, statusAt, render, BatchAnswer.status, BatchAnswer.succeeded,
          BatchCall.now, hcancel, hnow, Int.not_lt.mp hnow]

/-- Once the batch has ended, every answer has its status and no cancellation takes effect. -/
theorem answers_of_ended {last : BatchStatus} (hlast : last ≠ .inProgress)
    (h : ∀ c ∈ calls, st.statusAt c.now = last) :
    ∀ a ∈ st.answers calls, a.status = last ∧ a.succeeded = false := by
  induction calls with
  | nil => simp [answers]
  | cons c calls ih =>
    obtain ⟨hc, hcalls⟩ := List.forall_mem_cons.mp h
    obtain ⟨hst, hstatus, hno⟩ | ⟨hprogress, _⟩ := st.call_cases c
    · rw [answers, hst]
      exact List.forall_mem_cons.mpr ⟨⟨hstatus.trans hc, hno⟩, ih hcalls⟩
    · exact absurd (hc.symm.trans hprogress) hlast

/-- What the answers say of a batch over time. -/
structure Lifecycle (answers : List BatchAnswer) : Prop where
  statuses : ∃ n last, last ≠ .inProgress ∧ answers.map BatchAnswer.status =
    List.replicate n .inProgress ++ List.replicate (answers.length - n) last
  once : answers.countP BatchAnswer.succeeded ≤ 1
  /-- A cancellation that takes effect comes before or after no observation of `completed`. -/
  notCompleted : answers.Pairwise fun a b =>
    (b.succeeded = true → a.status ≠ .completed) ∧ (a.succeeded = true → b.status ≠ .completed)

theorem lifecycle_of_ended {a : BatchAnswer} {l : List BatchAnswer} {last : BatchStatus}
    (hlast : last ≠ .inProgress) (ha : a.status = last)
    (hsucc : a.succeeded = true → last ≠ .completed)
    (hl : ∀ b ∈ l, b.status = last ∧ b.succeeded = false) : Lifecycle (a :: l) := by
  have hstatus : ∀ b ∈ a :: l, b.status = last :=
    List.forall_mem_cons.mpr ⟨ha, fun b hb => (hl b hb).1⟩
  have hnot : ∀ b ∈ a :: l, b.succeeded = true → last ≠ .completed :=
    List.forall_mem_cons.mpr ⟨hsucc, fun b hb h => by simp [(hl b hb).2] at h⟩
  refine ⟨⟨0, last, hlast, ?_⟩, ?_, ?_⟩
  · rw [List.replicate_zero, List.nil_append, List.eq_replicate_iff, List.length_map]
    refine ⟨rfl, fun x hx => ?_⟩
    obtain ⟨b, hb, rfl⟩ := List.mem_map.mp hx
    exact hstatus b hb
  · have hnone : l.countP BatchAnswer.succeeded = 0 :=
      List.countP_eq_zero.mpr fun b hb => by simp [(hl b hb).2]
    rw [List.countP_cons]
    split <;> omega
  · refine List.pairwise_of_forall_mem_list fun b hb c hc => ?_
    rw [hstatus b hb, hstatus c hc]
    exact ⟨hnot c hc, hnot b hb⟩

/-- A read of a batch in progress says nothing about what comes. -/
theorem Lifecycle.cons {a : BatchAnswer} {l : List BatchAnswer} (h : Lifecycle l)
    (ha : a.status = .inProgress) (hno : a.succeeded = false) : Lifecycle (a :: l) := by
  obtain ⟨n, last, hlast, hmap⟩ := h.statuses
  refine ⟨⟨n + 1, last, hlast, ?_⟩, ?_, List.pairwise_cons.mpr ⟨?_, h.notCompleted⟩⟩
  · rw [List.map_cons, ha, hmap, List.length_cons, Nat.add_sub_add_right, List.replicate_succ,
      List.cons_append]
  · rw [List.countP_cons, hno]
    exact h.once
  · simp [ha, hno]

theorem lifecycle_answers (h : (calls.map BatchCall.now).Pairwise (· ≤ ·)) :
    Lifecycle (st.answers calls) := by
  induction calls with
  | nil => exact ⟨⟨0, .completed, by decide, rfl⟩, by simp [answers], .nil⟩
  | cons c calls ih =>
    rw [List.map_cons, List.pairwise_cons] at h
    have hle : ∀ c' ∈ calls, c.now ≤ c'.now := fun c' hc' => h.1 _ (List.mem_map_of_mem hc')
    rw [answers]
    obtain ⟨hst, hstatus, hno⟩ | ⟨_, hstatus, hcancelled⟩ := st.call_cases c
    · rw [hst]
      by_cases hprogress : st.statusAt c.now = .inProgress
      · exact (ih h.2).cons (hstatus.trans hprogress) hno
      · refine lifecycle_of_ended hprogress hstatus (by simp [hno]) ?_
        exact answers_of_ended hprogress fun c' hc' => statusAt_of_le (hle c' hc') hprogress
    · exact lifecycle_of_ended (by decide) hstatus (fun _ => by decide)
        (answers_of_ended (by decide) fun c' _ => hcancelled _)

/-- A batch shows its files exactly when it is completed, and no tallies while it is in
    progress. -/
def Shows (st : BatchState) (b : Batch) : Prop :=
  b.outputFileID = (if b.status = .completed then fileID st.outputFileID else none) ∧
    b.errorFileID = (if b.status = .completed then fileID st.errorFileID else none) ∧
    (b.status = .inProgress → b.requestCounts.completed = 0 ∧ b.requestCounts.failed = 0)

/-- The life of a batch, over every interleaving of reads and cancellations at times that do
    not decrease, and what it shows in any state. -/
theorem batch_lifecycle (st : BatchState) (calls : List BatchCall)
    (h : (calls.map BatchCall.now).Pairwise (· ≤ ·)) :
    Lifecycle (st.answers calls) ∧ ∀ (st : BatchState) (now : Int), st.Shows (st.render now) := by
  refine ⟨lifecycle_answers h, fun st now => ?_⟩
  unfold Shows render
  split
  · simp
  · split <;> simp

/-- A batch that takes 5 ns is read, cancelled, cancelled again and read at its deadline. -/
theorem cancelled_lifecycle :
    Lifecycle ((⟨0, 5, ⟨2, 1, 1⟩, "out", "", false, 0⟩ : BatchState).answers
      [.render 1, .cancel 2, .cancel 3, .render 5]) :=
  (batch_lifecycle _ _ (by decide)).1

end BatchState

end MockAgents
