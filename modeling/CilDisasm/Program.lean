/-!
# Programs with requests

A program is either finished or makes a request and goes on with the reply. An interface
lists the requests and the type of reply to each of them. Since a program is a value, the
same one can be run against a table, against a resolver with a memory, or one request at a
time in turns with others.
-/

namespace CilDisasm

structure Interface where
  Request : Type
  Reply : Request -> Type

inductive Program (I : Interface) (α : Type) : Type where
  | done (value : α)
  | call (request : I.Request) (next : I.Reply request -> Program I α)

namespace Program

variable {I J : Interface} {α β σ : Type}

def bind (program : Program I α) (next : α -> Program I β) : Program I β :=
  match program with
  | done value => next value
  | call request resume => call request (fun reply => (resume reply).bind next)

instance : Monad (Program I) where
  pure := done
  bind := bind

def request (request : I.Request) : Program I (I.Reply request) :=
  call request done

/-- Replaces every request by a program over another interface. -/
def interpret (meaning : (request : I.Request) -> Program J (I.Reply request)) :
    Program I α -> Program J α
  | done value => done value
  | call request next => (meaning request).bind (fun reply => (next reply).interpret meaning)

/-!
# Running

A responder answers a request and may change its state.
-/

abbrev Responder (I : Interface) (σ : Type) : Type :=
  (request : I.Request) -> σ -> I.Reply request × σ

def run (respond : Responder I σ) : Program I α -> σ -> α × σ
  | done value, state => (value, state)
  | call request next, state =>
      let (reply, state) := respond request state
      (next reply).run respond state

/-!
# Laws
-/

@[simp] theorem bind_done (value : α) (next : α -> Program I β) :
    (done value).bind next = next value :=
  rfl

@[simp] theorem bind_call (request : I.Request) (resume : I.Reply request -> Program I α)
    (next : α -> Program I β) :
    (call request resume).bind next =
      call request (fun reply => (resume reply).bind next) :=
  rfl

theorem bind_eq (program : Program I α) (next : α -> Program I β) :
    program >>= next = program.bind next :=
  rfl

theorem bind_pure (program : Program I α) : program.bind done = program := by
  induction program with
  | done value => rfl
  | call request resume ih => simp [ih]

theorem bind_assoc {γ : Type} (program : Program I α) (next : α -> Program I β)
    (last : β -> Program I γ) :
    (program.bind next).bind last =
      program.bind (fun value => (next value).bind last) := by
  induction program with
  | done value => rfl
  | call request resume ih => simp [ih]

theorem run_bind (respond : Responder I σ) (program : Program I α)
    (next : α -> Program I β) (state : σ) :
    (program.bind next).run respond state =
      (next (program.run respond state).1).run respond (program.run respond state).2 := by
  induction program generalizing state with
  | done value => rfl
  | call request resume ih => simp [run, ih]

end Program

end CilDisasm
