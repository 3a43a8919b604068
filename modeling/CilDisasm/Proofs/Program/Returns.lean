import CilDisasm.Dialogue.Transcript

/-!
# What a program may return

What a program comes to depends on the replies it gets. A relation says which replies a
request may get, and the values that the program may then return are collected by going
down its tree. Nothing is said about who replies: a table, a resolver with a memory, and a
cache shared with others all keep to some relation of this kind.
-/

namespace CilDisasm
namespace Program

variable {I : Interface} {α β σ : Type}

inductive Returns (allowed : (request : I.Request) -> I.Reply request -> Prop) :
    Program I α -> α -> Prop where
  | done (value : α) : Returns allowed (.done value) value
  | call {request : I.Request} {reply : I.Reply request}
      {resume : I.Reply request -> Program I α} {value : α} :
      allowed request reply ->
      Returns allowed (resume reply) value ->
      Returns allowed (.call request resume) value

variable {allowed : (request : I.Request) -> I.Reply request -> Prop}

@[simp] theorem returns_done_iff {value result : α} :
    Returns allowed (.done value : Program I α) result <-> result = value := by
  constructor
  · intro h
    cases h
    rfl
  · intro h
    rw [h]
    exact Returns.done value

@[simp] theorem returns_call_iff {request : I.Request}
    {resume : I.Reply request -> Program I α} {result : α} :
    Returns allowed (.call request resume) result <->
      exists reply : I.Reply request,
        allowed request reply ∧ Returns allowed (resume reply) result := by
  constructor
  · intro h
    cases h with
    | call hreply hresume => exact ⟨_, hreply, hresume⟩
  · intro h
    rcases h with ⟨reply, hreply, hresume⟩
    exact Returns.call hreply hresume

theorem returns_bind_iff {program : Program I α} {next : α -> Program I β} {result : β} :
    Returns allowed (program.bind next) result <->
      exists value : α, Returns allowed program value ∧ Returns allowed (next value) result := by
  induction program with
  | done value => simp
  | call request resume ih =>
      simp only [bind_call, returns_call_iff, ih]
      constructor
      · intro h
        rcases h with ⟨reply, hreply, value, hvalue, hresult⟩
        exact ⟨value, ⟨reply, hreply, hvalue⟩, hresult⟩
      · intro h
        rcases h with ⟨value, ⟨reply, hreply, hvalue⟩, hresult⟩
        exact ⟨reply, hreply, value, hvalue, hresult⟩

/-- A run returns one of the values that its replies allow. -/
theorem returns_run {respond : Responder I σ}
    (hallowed : forall request state, allowed request (respond request state).1)
    (program : Program I α) (state : σ) :
    Returns allowed program (program.run respond state).1 := by
  induction program generalizing state with
  | done value => exact Returns.done value
  | call request resume ih =>
      exact Returns.call (hallowed request state) (ih _ _)

theorem run_eq_of_returns {respond : Responder I σ}
    (hunique : forall request reply state,
      allowed request reply -> reply = (respond request state).1)
    {program : Program I α} {value : α} (h : Returns allowed program value) (state : σ) :
    (program.run respond state).1 = value := by
  induction h generalizing state with
  | done value => rfl
  | @call request reply resume value hreply hresume ih =>
      have hrun := ih (respond request state).2
      rw [hunique request reply state hreply] at hrun
      exact hrun

end Program

/-!
# Dialogues

In a dialogue only queries have replies that matter. An oracle is a relation between
queries and outcomes.
-/

abbrev Oracle : Type :=
  (query : Query) -> query.Outcome -> Prop

namespace Oracle

def Allows (oracle : Oracle) :
    (request : dialogueInterface.Request) -> dialogueInterface.Reply request -> Prop
  | .resolve query, outcome => oracle query outcome
  | .report _, _ => True

def ofResponder {σ : Type} (respond : Program.Responder dialogueInterface σ) : Oracle :=
  fun query outcome => exists state : σ, (respond (.resolve query) state).1 = outcome

def ofResolver (resolver : Resolver) : Oracle :=
  fun query outcome => resolver query = outcome

theorem eq_respondOnly_of_allows {resolver : Resolver} :
    forall (request : dialogueInterface.Request) (reply : dialogueInterface.Reply request)
      (state : Unit),
      (ofResolver resolver).Allows request reply ->
        reply = (resolver.respondOnly request state).1 := by
  intro request reply state hreply
  cases request with
  | resolve query => exact Eq.symm hreply
  | report event => rfl

end Oracle

namespace Dialogue

variable {α : Type} {oracle : Oracle}

abbrev Returns (oracle : Oracle) (dialogue : Dialogue α) (value : α) : Prop :=
  Program.Returns oracle.Allows dialogue value

@[simp] theorem returns_resolve_iff {query : Query} {outcome : query.Outcome} :
    Returns oracle (resolve query) outcome <-> oracle query outcome := by
  constructor
  · intro h
    rcases Program.returns_call_iff.mp h with ⟨reply, hreply, hdone⟩
    rw [Program.returns_done_iff.mp hdone]
    exact hreply
  · intro h
    exact Program.Returns.call h (Program.Returns.done outcome)

theorem returns_report (event : Event) : Returns oracle (report event) () :=
  Program.Returns.call trivial (Program.Returns.done ())

theorem returns_reportAll (events : List Event) :
    Returns oracle (reportAll events) () := by
  induction events with
  | nil => exact Program.Returns.done ()
  | cons event rest ih =>
      exact Program.returns_bind_iff.mpr ⟨(), returns_report event, ih⟩

@[simp] theorem returns_report_bind_iff {event : Event} {next : Unit -> Dialogue α}
    {value : α} :
    Returns oracle ((report event).bind next) value <-> Returns oracle (next ()) value := by
  unfold Returns
  rw [Program.returns_bind_iff]
  constructor
  · intro h
    rcases h with ⟨_, -, hnext⟩
    exact hnext
  · intro h
    exact ⟨(), returns_report event, h⟩

@[simp] theorem returns_reportAll_bind_iff {events : List Event}
    {next : Unit -> Dialogue α} {value : α} :
    Returns oracle ((reportAll events).bind next) value <->
      Returns oracle (next ()) value := by
  unfold Returns
  rw [Program.returns_bind_iff]
  constructor
  · intro h
    rcases h with ⟨_, -, hnext⟩
    exact hnext
  · intro h
    exact ⟨(), returns_reportAll events, h⟩

theorem returns_run {σ : Type} (respond : Program.Responder dialogueInterface σ)
    (dialogue : Dialogue α) (state : σ) :
    Returns (.ofResponder respond) dialogue (dialogue.run respond state).1 := by
  refine Program.returns_run ?_ dialogue state
  intro request state
  cases request with
  | resolve query => exact ⟨state, rfl⟩
  | report event => trivial

theorem result_eq_iff_returns {resolver : Resolver} {dialogue : Dialogue α} {value : α} :
    dialogue.result resolver = value <-> Returns (.ofResolver resolver) dialogue value := by
  constructor
  · intro h
    rw [← h]
    refine Program.returns_run ?_ dialogue ()
    intro request state
    cases request <;> trivial
  · intro h
    exact Program.run_eq_of_returns Oracle.eq_respondOnly_of_allows h ()

end Dialogue

end CilDisasm
