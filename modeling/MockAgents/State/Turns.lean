import MockAgents.ForStd.Trace
import MockAgents.State.Session

/-!
# Concurrent turns on one session

`ApplyTurn` at the grain of its lock: any number of callers, each waiting for the
session lock, appending its user message, running its `build` callback, appending the
reply and unlocking. The callback and the clock are inputs of the events, so a run is
any interleaving with any mix of succeeding and failing callbacks.
-/

namespace MockAgents

/-- How far a caller is in `ApplyTurn`. -/
inductive TurnPc where
  | idle
  | waiting (content : String)
  | entered (content : String)
  | appended (content : String) (userAt : Int)
  | built (content : String) (userAt : Int) (number : Nat) (vars : Fields)
      (reply : Option Reply)
  | replied (content : String) (userAt : Int) (number : Nat) (vars : Fields)
      (reply : Reply) (replyAt : Int)

/-- A finished call of `ApplyTurn`: its caller, its user message, the turn number its
    `build` callback was given, and the reply of that callback unless it failed. -/
structure Turn (ι : Type) where
  caller : ι
  content : String
  userAt : Int
  number : Nat
  vars : Fields
  reply : Option (Reply × Int)

/-- The session, its lock and its callers. `numbers` are the turn numbers passed to the
    callbacks so far and `turns` the finished calls, both in order of time. -/
structure TurnSystem (ι : Type) where
  session : Session
  mu : Option ι
  pc : ι → TurnPc
  numbers : List Nat
  turns : List (Turn ι)

/-- The steps of `ApplyTurn`. A `build` without a reply is one that returned an error. -/
inductive TurnEvent (ι : Type) where
  | call (i : ι) (content : String)
  | lock (i : ι)
  | appendUser (i : ι) (now : Int)
  | build (i : ι) (vars : Fields) (reply : Option Reply)
  | appendAssistant (i : ι) (now : Int)
  | unlock (i : ι)

namespace TurnSystem

variable {ι : Type} [DecidableEq ι]

/-- A session that no one uses yet. -/
def initial (session : Session) : TurnSystem ι where
  session := session
  mu := none
  pc := fun _ => .idle
  numbers := []
  turns := []

/-- Move one caller. -/
def setPc (s : TurnSystem ι) (i : ι) (pc : TurnPc) : TurnSystem ι :=
  { s with pc := Function.update s.pc i pc }

/-- Leave the critical section and record the turn. -/
def finish (s : TurnSystem ι) (turn : Turn ι) : TurnSystem ι :=
  { s.setPc turn.caller .idle with mu := none, turns := s.turns ++ [turn] }

/-- One step; `none` if the event is not enabled. -/
def step (s : TurnSystem ι) : TurnEvent ι → Option (TurnSystem ι)
  | .call i content =>
    match s.pc i with
    | .idle => some (s.setPc i (.waiting content))
    | _ => none
  | .lock i =>
    match s.pc i, s.mu with
    | .waiting content, none => some { s.setPc i (.entered content) with mu := some i }
    | _, _ => none
  | .appendUser i now =>
    match s.pc i with
    | .entered content =>
      some { s.setPc i (.appended content now) with
        session := s.session.appendUserMessage content now }
    | _ => none
  | .build i vars reply =>
    match s.pc i with
    | .appended content userAt =>
      let number := s.session.turnCount
      some { s.setPc i (.built content userAt number vars reply) with
        session := { s.session with vars := vars }
        numbers := s.numbers ++ [number] }
    | _ => none
  | .appendAssistant i now =>
    match s.pc i with
    | .built content userAt number vars (some reply) =>
      some { s.setPc i (.replied content userAt number vars reply now) with
        session := s.session.appendAssistantMessage reply.content reply.toolCalls now }
    | _ => none
  | .unlock i =>
    match s.pc i with
    | .built content userAt number vars none =>
      some (s.finish ⟨i, content, userAt, number, vars, none⟩)
    | .replied content userAt number vars reply replyAt =>
      some (s.finish ⟨i, content, userAt, number, vars, some (reply, replyAt)⟩)
    | _ => none

def run (s : TurnSystem ι) (events : List (TurnEvent ι)) : Option (TurnSystem ι) :=
  runOption step s events

end TurnSystem

end MockAgents
