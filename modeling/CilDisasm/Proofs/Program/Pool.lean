import CilDisasm.Proofs.Program.Returns
import Mathlib.Data.List.Forall2

/-!
# Clients in turns

Several clients use one service at the same time. A request of a client is served by a program
on a state that all of them share. This program takes one step at a time, and between two of
its steps any of the other clients may take theirs. A schedule says whose turn comes next;
nothing is assumed about it, except where a pool is to come to an end.
-/

namespace CilDisasm

/-- What the requests of an interface mean on a shared state. -/
structure Service (J I : Interface) (σ : Type) where
  meaning : (request : J.Request) -> Program I (J.Reply request)
  respond : Program.Responder I σ

/-- A client between two of its requests, or with a request that is being served. -/
inductive Worker (J I : Interface) (α : Type) where
  | ready (client : Program J α)
  | serving (request : J.Request) (service : Program I (J.Reply request))
      (resume : J.Reply request -> Program J α)

/-- The workers with their state, and the requests that were served, the latest first. -/
structure Pool (J I : Interface) (σ α : Type) where
  workers : List (Worker J I α)
  state : σ
  served : List ((request : J.Request) × J.Reply request)

namespace Pool

variable {J I : Interface} {σ α : Type}

def start (clients : List (Program J α)) (state : σ) : Pool J I σ α :=
  { workers := clients.map .ready, state := state, served := [] }

def Finished (pool : Pool J I σ α) (outcomes : List α) : Prop :=
  pool.workers = outcomes.map fun outcome => .ready (.done outcome)

end Pool

namespace Service

variable {J I : Interface} {σ α : Type}

/-- One step of a worker: it makes a request, the service goes on, or the reply returns. A
client that is done takes no step. -/
def advance (service : Service J I σ) (state : σ) :
    Worker J I α -> Option (Worker J I α × σ × List ((request : J.Request) × J.Reply request))
  | .ready (.done _) => none
  | .ready (.call request resume) =>
      some (.serving request (service.meaning request) resume, state, [])
  | .serving request (.call inner next) resume =>
      let (reply, state) := service.respond inner state
      some (.serving request (next reply) resume, state, [])
  | .serving request (.done reply) resume =>
      some (.ready (resume reply), state, [⟨request, reply⟩])

def turn (service : Service J I σ) (pool : Pool J I σ α) (index : Nat) : Pool J I σ α :=
  match pool.workers[index]?.bind (service.advance pool.state) with
  | some (worker, state, served) =>
      { workers := pool.workers.set index worker
        state := state
        served := served ++ pool.served }
  | none => pool

def run (service : Service J I σ) (pool : Pool J I σ α) (schedule : List Nat) :
    Pool J I σ α :=
  schedule.foldl service.turn pool

variable {service : Service J I σ} {pool : Pool J I σ α}

theorem run_append (first second : List Nat) :
    service.run pool (first ++ second) = service.run (service.run pool first) second :=
  List.foldl_append

theorem length_workers_turn (index : Nat) :
    (service.turn pool index).workers.length = pool.workers.length := by
  unfold turn
  split
  · exact List.length_set
  · rfl

theorem length_workers_run (schedule : List Nat) :
    (service.run pool schedule).workers.length = pool.workers.length := by
  induction schedule generalizing pool with
  | nil => rfl
  | cons index rest ih => exact ih.trans (length_workers_turn index)

end Service

/-!
# Disciplines

A user of a shared state guarantees which requests it makes and relies on which replies it
gets. Every step of every user keeps the invariant, so all of them can rely on it.
-/

structure Discipline (I : Interface) (σ : Type) where
  invariant : σ -> Prop
  permitted : I.Request -> Prop
  allowed : (request : I.Request) -> I.Reply request -> Prop

namespace Program

variable {I : Interface} {σ α β : Type} {discipline : Discipline I σ}

/-- However it is replied to, a program only makes requests that are permitted. -/
def Respects (discipline : Discipline I σ) : Program I α -> Prop
  | done _ => True
  | call request next =>
      discipline.permitted request ∧
        forall reply, discipline.allowed request reply -> (next reply).Respects discipline

end Program

/-- A service that keeps a discipline gives the right replies. -/
structure Service.Correct {J I : Interface} {σ : Type} (service : Service J I σ)
    (discipline : Discipline I σ) (right : (request : J.Request) -> J.Reply request -> Prop) :
    Prop where
  allowed : forall {request : I.Request} {state : σ},
    discipline.invariant state -> discipline.permitted request ->
    discipline.allowed request (service.respond request state).1
  invariant : forall {request : I.Request} {state : σ},
    discipline.invariant state -> discipline.permitted request ->
    discipline.invariant (service.respond request state).2
  respects : forall request : J.Request, (service.meaning request).Respects discipline
  right : forall {request : J.Request} {reply : J.Reply request},
    (service.meaning request).Returns discipline.allowed reply -> right request reply

variable {J I : Interface} {σ α : Type} {discipline : Discipline I σ}
  {right : (request : J.Request) -> J.Reply request -> Prop}

/-- What is left of a client keeps the discipline and comes to nothing else than the client
would have come to, had it got the right reply to each of its requests. -/
def Worker.Follows (discipline : Discipline I σ)
    (right : (request : J.Request) -> J.Reply request -> Prop) (origin : Program J α) :
    Worker J I α -> Prop
  | .ready client => forall value, client.Returns right value -> origin.Returns right value
  | .serving request service resume =>
      service.Respects discipline ∧
        (forall reply, service.Returns discipline.allowed reply -> right request reply) ∧
        forall reply value, right request reply -> (resume reply).Returns right value ->
          origin.Returns right value

/-- A pool in which every client is on its way and every reply was right. -/
structure Pool.Sound (pool : Pool J I σ α) (discipline : Discipline I σ)
    (right : (request : J.Request) -> J.Reply request -> Prop)
    (clients : List (Program J α)) : Prop where
  invariant : discipline.invariant pool.state
  workers : List.Forall₂ (fun client worker => worker.Follows discipline right client)
    clients pool.workers
  served : forall {request : J.Request} {reply : J.Reply request},
    ⟨request, reply⟩ ∈ pool.served -> right request reply

namespace Service.Correct

variable {service : Service J I σ} {pool : Pool J I σ α} {clients : List (Program J α)}

/-- A step of one worker keeps the invariant, the worker on its way and the record right. -/
theorem advance (hcorrect : service.Correct discipline right) {origin : Program J α}
    {state next : σ} {worker later : Worker J I α}
    {served : List ((request : J.Request) × J.Reply request)}
    (hstate : discipline.invariant state) (hworker : worker.Follows discipline right origin)
    (h : service.advance state worker = some (later, next, served)) :
    discipline.invariant next ∧ later.Follows discipline right origin ∧
      forall {request : J.Request} {reply : J.Reply request},
        ⟨request, reply⟩ ∈ served -> right request reply := by
  -- The state only changes while a request is served, and only then is the discipline used.
  rcases worker with client | ⟨request, running, resume⟩
  · cases client with
    | done value => cases h
    | call request resume =>
        cases h
        refine ⟨hstate, ⟨hcorrect.respects request, fun reply => hcorrect.right, ?_⟩, ?_⟩
        · intro reply value hreply hvalue
          exact hworker value (Program.Returns.call hreply hvalue)
        · intro request reply hmem
          cases hmem
  · rcases hworker with ⟨hrespects, hright, hresume⟩
    cases running with
    | call inner resumeInner =>
        cases h
        have hallowed := hcorrect.allowed hstate hrespects.1
        refine ⟨hcorrect.invariant hstate hrespects.1,
          ⟨hrespects.2 _ hallowed, ?_, hresume⟩, ?_⟩
        · intro reply hreply
          exact hright reply (Program.Returns.call hallowed hreply)
        · intro request reply hmem
          cases hmem
    | done reply =>
        cases h
        have hreply := hright reply (Program.Returns.done reply)
        refine ⟨hstate, fun value => hresume reply value hreply, ?_⟩
        intro other answer hmem
        cases List.mem_singleton.mp hmem
        exact hreply

theorem turn (hcorrect : service.Correct discipline right)
    (h : pool.Sound discipline right clients) (index : Nat) :
    (service.turn pool index).Sound discipline right clients := by
  unfold Service.turn
  split
  · next worker state served hadvance =>
      rcases Option.bind_eq_some_iff.mp hadvance with ⟨former, hformer, hstep⟩
      rcases List.getElem?_eq_some_iff.mp hformer with ⟨hindex, hget⟩
      have hworkers := List.forall₂_iff_get.mp h.workers
      have hclient : index < clients.length := hworkers.1 ▸ hindex
      have hfollows := hworkers.2 index hclient hindex
      rw [List.get_eq_getElem, List.get_eq_getElem, hget] at hfollows
      rcases hcorrect.advance h.invariant hfollows hstep with ⟨hstate, hlater, hserved⟩
      constructor
      · exact hstate
      · apply List.forall₂_iff_get.mpr
        refine ⟨hworkers.1.trans List.length_set.symm, ?_⟩
        intro position hposition hset
        rw [List.get_eq_getElem, List.get_eq_getElem, List.getElem_set]
        split
        · next hsame =>
            subst hsame
            exact hlater
        · exact hworkers.2 position hposition (List.length_set ▸ hset)
      · intro request reply hmem
        rcases List.mem_append.mp hmem with hnew | hold
        · exact hserved hnew
        · exact h.served hold
  · exact h

theorem run (hcorrect : service.Correct discipline right)
    (h : pool.Sound discipline right clients) (schedule : List Nat) :
    (service.run pool schedule).Sound discipline right clients := by
  induction schedule generalizing pool with
  | nil => exact h
  | cons index rest ih => exact ih (hcorrect.turn h index)

end Service.Correct

namespace Pool

theorem sound_start {state : σ} (hstate : discipline.invariant state)
    (clients : List (Program J α)) :
    (start clients state).Sound discipline right clients where
  invariant := hstate
  workers := by
    show List.Forall₂ _ clients (clients.map Worker.ready)
    rw [List.forall₂_map_right_iff, List.forall₂_same]
    intro client _ value hvalue
    exact hvalue
  served := by
    intro request reply hmem
    cases hmem

/-- The clients of a finished pool came to what right replies lead to. -/
theorem Sound.forall₂_returns {pool : Pool J I σ α} {clients : List (Program J α)}
    (h : pool.Sound discipline right clients) {outcomes : List α}
    (hfinished : pool.Finished outcomes) :
    List.Forall₂ (fun client outcome => client.Returns right outcome) clients outcomes := by
  have hworkers := h.workers
  rw [show pool.workers = _ from hfinished, List.forall₂_map_right_iff] at hworkers
  exact hworkers.imp fun _ outcome hfollows =>
    hfollows outcome (Program.Returns.done outcome)

end Pool
end CilDisasm
