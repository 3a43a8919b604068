import CilDisasm.Dialogue.Basic

/-!
# The calls of a run

A run makes one request after the other, and which ones it makes may depend on the replies to
those before. Its calls are these requests in order, each with the reply that it got. A
program that goes on as another one makes the calls of both, one behind the other.
-/

namespace CilDisasm
namespace Program

variable {I : Interface} {α β σ : Type}

structure Call (I : Interface) where
  request : I.Request
  reply : I.Reply request

def calls (respond : Responder I σ) : Program I α -> σ -> List (Call I)
  | done _, _ => []
  | call request next, state =>
      let (reply, later) := respond request state
      ⟨request, reply⟩ :: (next reply).calls respond later

def recording (respond : Responder I σ) : Responder I (σ × List (Call I)) :=
  fun request (state, past) =>
    let (reply, later) := respond request state
    (reply, later, past ++ [⟨request, reply⟩])

/-- The calls of a run are what the one who answers can take down. -/
theorem run_recording (respond : Responder I σ) (program : Program I α) (state : σ)
    (past : List (Call I)) :
    program.run (recording respond) (state, past) =
      ((program.run respond state).1, (program.run respond state).2,
        past ++ program.calls respond state) := by
  induction program generalizing state past with
  | done value => rw [run, run, calls, List.append_nil]
  | call request resume ih =>
      have hrest := ih (respond request state).1 (respond request state).2
        (past ++ [⟨request, (respond request state).1⟩])
      rw [List.append_assoc] at hrest
      exact hrest

@[simp] theorem calls_done (respond : Responder I σ) (value : α) (state : σ) :
    (done value : Program I α).calls respond state = [] :=
  rfl

theorem calls_bind (respond : Responder I σ) (program : Program I α)
    (next : α -> Program I β) (state : σ) :
    (program.bind next).calls respond state =
      program.calls respond state ++
        (next (program.run respond state).1).calls respond (program.run respond state).2 := by
  induction program generalizing state with
  | done value => rfl
  | call request resume ih =>
      have hrest := ih (respond request state).1 (respond request state).2
      exact congrArg (List.cons ⟨request, (respond request state).1⟩) hrest

end Program

/-!
# Consultations

In a dialogue the calls that ask what a token stands for are the consultations. The others
are reports.
-/

structure Consultation where
  query : Query
  outcome : query.Outcome

def Program.Call.consultation? : Program.Call dialogueInterface -> Option Consultation
  | ⟨.resolve query, outcome⟩ => some ⟨query, outcome⟩
  | ⟨.report _, _⟩ => none

def Program.Call.report? : Program.Call dialogueInterface -> Option Event
  | ⟨.report event, _⟩ => some event
  | ⟨.resolve _, _⟩ => none

namespace Dialogue

variable {α β σ : Type} (respond : Program.Responder dialogueInterface σ)

def consultations (dialogue : Dialogue α) (state : σ) : List Consultation :=
  (dialogue.calls respond state).filterMap Program.Call.consultation?

@[simp] theorem consultations_done (value : α) (state : σ) :
    consultations respond (.done value : Dialogue α) state = [] :=
  rfl

theorem consultations_bind (dialogue : Dialogue α) (next : α -> Dialogue β) (state : σ) :
    consultations respond (dialogue.bind next) state =
      consultations respond dialogue state ++
        consultations respond (next (dialogue.run respond state).1)
          (dialogue.run respond state).2 := by
  rw [consultations, Program.calls_bind, List.filterMap_append]
  rfl

theorem consultations_resolve (query : Query) (state : σ) :
    consultations respond (resolve query) state =
      [⟨query, (respond (.resolve query) state).1⟩] :=
  rfl

@[simp] theorem consultations_report (event : Event) (state : σ) :
    consultations respond (report event) state = [] :=
  rfl

@[simp] theorem consultations_reportAll (events : List Event) (state : σ) :
    consultations respond (reportAll events) state = [] := by
  induction events generalizing state with
  | nil => rfl
  | cons event rest ih =>
      show consultations respond ((report event).bind fun _ => reportAll rest) state = []
      rw [consultations_bind, consultations_report, List.nil_append, ih]

/-!
# Reports

The reports of a run are the events of its calls. They depend on the replies to queries, but
nothing is said about who replies, and who replies does not report.
-/

def reports (dialogue : Dialogue α) (state : σ) : List Event :=
  (dialogue.calls respond state).filterMap Program.Call.report?

@[simp] theorem reports_done (value : α) (state : σ) :
    reports respond (.done value : Dialogue α) state = [] :=
  rfl

theorem reports_bind (dialogue : Dialogue α) (next : α -> Dialogue β) (state : σ) :
    reports respond (dialogue.bind next) state =
      reports respond dialogue state ++
        reports respond (next (dialogue.run respond state).1)
          (dialogue.run respond state).2 := by
  rw [reports, Program.calls_bind, List.filterMap_append]
  rfl

@[simp] theorem reports_resolve (query : Query) (state : σ) :
    reports respond (resolve query) state = [] :=
  rfl

@[simp] theorem reports_report (event : Event) (state : σ) :
    reports respond (report event) state = [event] :=
  rfl

@[simp] theorem reports_reportAll (events : List Event) (state : σ) :
    reports respond (reportAll events) state = events := by
  induction events generalizing state with
  | nil => rfl
  | cons event rest ih =>
      show reports respond ((report event).bind fun _ => reportAll rest) state = event :: rest
      rw [reports_bind, reports_report, ih, List.singleton_append]

end Dialogue

end CilDisasm
