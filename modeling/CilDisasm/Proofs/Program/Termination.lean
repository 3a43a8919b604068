import CilDisasm.Proofs.Program.Pool
import Mathlib.Data.Set.List
import Mathlib.Logic.Hydra

/-!
# Pools come to an end

A client is a finite tree, and so is every program that serves one of its requests. A step
replaces a worker by one that is further down, and no matter how the turns are dealt out,
this cannot go on forever. When every worker gets its turn again and again, the pool cannot
rest before all clients are done.
-/

namespace CilDisasm
namespace Service

open scoped List

variable {J I : Interface} {σ α : Type} (service : Service J I σ)

/-!
# Descent
-/

def Leads (later worker : Worker J I α) : Prop :=
  exists state : σ, exists next : σ,
    exists served : List ((request : J.Request) × J.Reply request),
      service.advance state worker = some (later, next, served)

variable {service}

theorem acc_leads_serving {request : J.Request} {resume : J.Reply request -> Program J α}
    (hresume : forall reply, Acc service.Leads (.ready (resume reply)))
    (running : Program I (J.Reply request)) :
    Acc service.Leads (.serving request running resume) := by
  induction running with
  | done reply =>
      refine Acc.intro _ ?_
      intro later h
      rcases h with ⟨state, next, served, hstep⟩
      cases hstep
      exact hresume reply
  | call inner next ih =>
      refine Acc.intro _ ?_
      intro later h
      rcases h with ⟨state, next, served, hstep⟩
      cases hstep
      exact ih _

theorem acc_leads_ready (client : Program J α) : Acc service.Leads (.ready client) := by
  induction client with
  | done value =>
      refine Acc.intro _ ?_
      intro later h
      rcases h with ⟨state, next, served, hstep⟩
      cases hstep
  | call request resume ih =>
      refine Acc.intro _ ?_
      intro later h
      rcases h with ⟨state, next, served, hstep⟩
      cases hstep
      exact acc_leads_serving ih _

theorem wellFounded_leads : WellFounded (service.Leads (α := α)) := by
  constructor
  intro worker
  cases worker with
  | ready client => exact acc_leads_ready client
  | serving request running resume =>
      exact acc_leads_serving (fun reply => acc_leads_ready (resume reply)) running

variable (service) in
def Descends (later pool : Pool J I σ α) : Prop :=
  Relation.CutExpand service.Leads (later.workers : Multiset (Worker J I α)) pool.workers

theorem wellFounded_descends : WellFounded (service.Descends (α := α)) :=
  InvImage.wf (fun pool : Pool J I σ α => (pool.workers : Multiset (Worker J I α)))
    wellFounded_leads.cutExpand

variable {pool : Pool J I σ α} {index : Nat} {worker later : Worker J I α} {next : σ}
  {served : List ((request : J.Request) × J.Reply request)}

theorem descends_turn (hworker : pool.workers[index]? = some worker)
    (hstep : service.advance pool.state worker = some (later, next, served)) :
    service.Descends (service.turn pool index) pool := by
  rcases List.getElem?_eq_some_iff.mp hworker with ⟨hindex, hget⟩
  have hset : (service.turn pool index).workers = pool.workers.set index later := by
    unfold turn
    rw [hworker, Option.bind_some, hstep]
  have hperm : pool.workers.set index later ++ [worker] ~ pool.workers ++ [later] := by
    have hfront := List.set_perm_cons_eraseIdx hindex later
    have hback := List.getElem_cons_eraseIdx_perm hindex
    rw [hget] at hback
    calc pool.workers.set index later ++ [worker]
      _ ~ worker :: pool.workers.set index later := List.perm_append_singleton _ _
      _ ~ worker :: later :: pool.workers.eraseIdx index := hfront.cons worker
      _ ~ later :: worker :: pool.workers.eraseIdx index := List.Perm.swap _ _ _
      _ ~ later :: pool.workers := hback.cons later
      _ ~ pool.workers ++ [later] := (List.perm_append_singleton _ _).symm
  refine ⟨{later}, worker, ?_, ?_⟩
  · intro other hother
    rw [Multiset.mem_singleton.mp hother]
    exact ⟨pool.state, next, served, hstep⟩
  · rw [hset]
    exact Multiset.coe_eq_coe.mpr hperm

theorem turn_eq_or_descends (pool : Pool J I σ α) (index : Nat) :
    service.turn pool index = pool ∨ service.Descends (service.turn pool index) pool := by
  cases hstep : pool.workers[index]?.bind (service.advance pool.state) with
  | none =>
      unfold turn
      rw [hstep]
      exact Or.inl rfl
  | some step =>
      rcases Option.bind_eq_some_iff.mp hstep with ⟨worker, hworker, hadvance⟩
      exact Or.inr (descends_turn hworker hadvance)

/-!
# Fair turns
-/

/-- Each of so many workers gets its turn again and again. -/
def Fair (turns : Nat -> Nat) (count : Nat) : Prop :=
  forall index, index < count -> forall time, exists later, time ≤ later ∧ turns later = index

theorem fair_mod (count : Nat) : Fair (fun time => time % count) count := by
  intro index hindex time
  refine ⟨count * time + index, ?_, ?_⟩
  · have hcount : 0 < count := Nat.lt_of_le_of_lt (Nat.zero_le index) hindex
    exact Nat.le_trans (Nat.le_mul_of_pos_left time hcount) (Nat.le_add_right _ _)
  · show (count * time + index) % count = index
    rw [Nat.mul_add_mod, Nat.mod_eq_of_lt hindex]

theorem exists_done_of_advance_eq_none {state : σ}
    (h : service.advance state worker = none) :
    exists outcome : α, .ready (.done outcome) = worker := by
  rcases worker with client | ⟨request, running, resume⟩
  · cases client with
    | done value => exact ⟨value, rfl⟩
    | call request resume => cases h
  · cases running with
    | done reply => cases h
    | call inner next => cases h

theorem run_range_succ (pool : Pool J I σ α) (turns : Nat -> Nat) (time : Nat) :
    service.run pool ((List.range (time + 1)).map turns) =
      service.turn (service.run pool ((List.range time).map turns)) (turns time) := by
  rw [List.range_succ, List.map_append, run_append]
  rfl

variable (service) in
/-- When the turns are fair, all clients are done at some time, and it stays so. -/
theorem exists_finished_of_fair (pool : Pool J I σ α) {turns : Nat -> Nat}
    (hfair : Fair turns pool.workers.length) :
    exists outcomes : List α, exists time : Nat, forall later, time ≤ later ->
      (service.run pool ((List.range later).map turns)).Finished outcomes := by
  let poolAt := fun time => service.run pool ((List.range time).map turns)
  have hsucc : forall time, poolAt (time + 1) = service.turn (poolAt time) (turns time) :=
    run_range_succ pool turns
  -- The pool cannot descend forever, so it rests from some time on.
  rcases wellFounded_descends.has_min (Set.range poolAt) ⟨_, 0, rfl⟩ with
    ⟨_, ⟨time, rfl⟩, hminimal⟩
  have hrests : forall later, time ≤ later -> poolAt later = poolAt time := by
    intro later hle
    induction later, hle using Nat.le_induction with
    | base => rfl
    | succ later _ ih =>
        rcases turn_eq_or_descends (poolAt later) (turns later) with hsame | hlower
        · rw [hsucc, hsame, ih]
        · rw [← hsucc, ih] at hlower
          exact absurd hlower (hminimal _ ⟨later + 1, rfl⟩)
  have hdone : forall worker, worker ∈ (poolAt time).workers ->
      exists outcome : α, .ready (.done outcome) = worker := by
    intro worker hworker
    rcases List.getElem?_of_mem hworker with ⟨index, hindex⟩
    have hcount : index < pool.workers.length := by
      rw [← length_workers_run ((List.range time).map turns)]
      exact (List.getElem?_eq_some_iff.mp hindex).1
    cases hstep : service.advance (poolAt time).state worker with
    | none => exact exists_done_of_advance_eq_none hstep
    | some step =>
        rcases hfair index hcount time with ⟨later, hle, hturn⟩
        have hlower := descends_turn hindex hstep
        rw [← hrests later hle, ← hturn, ← hsucc, hrests later hle] at hlower
        exact absurd hlower (hminimal _ ⟨later + 1, rfl⟩)
  have hrange : (poolAt time).workers ∈
      Set.range (List.map fun outcome : α => (.ready (.done outcome) : Worker J I α)) := by
    rw [Set.range_list_map]
    exact hdone
  rcases hrange with ⟨outcomes, houtcomes⟩
  refine ⟨outcomes, time, ?_⟩
  intro later hle
  show (poolAt later).workers = _
  rw [hrests later hle, houtcomes]

/-- However turns are dealt out, as long as they are fair, all clients are done at some time,
and these are their values. -/
def Ends (service : Service J I σ) (pool : Pool J I σ α) (outcomes : List α) : Prop :=
  forall turns, Fair turns pool.workers.length ->
    exists time : Nat, forall later, time ≤ later ->
      (service.run pool ((List.range later).map turns)).Finished outcomes

/-!
# Values

Where a request has one right reply only, every client of a correct service comes to what it
comes to alone, when it gets this reply at once.
-/

section Values

variable {discipline : Discipline I σ}
  {right : (request : J.Request) -> J.Reply request -> Prop} {τ : Type}
  {direct : Program.Responder J τ} {clients : List (Program J α)} {outcomes : List α}

theorem eq_map_of_finished
    (hunique : forall request reply state,
      right request reply -> reply = (direct request state).1)
    (h : pool.Sound discipline right clients) (hfinished : pool.Finished outcomes)
    (origin : τ) : outcomes = clients.map fun client => (client.run direct origin).1 := by
  have hvalues : List.Forall₂ (fun client outcome => (client.run direct origin).1 = outcome)
      clients outcomes :=
    (h.forall₂_returns hfinished).imp fun _ _ hreturns =>
      Program.run_eq_of_returns hunique hreturns origin
  rw [← List.forall₂_map_left_iff, List.forall₂_eq_eq_eq] at hvalues
  exact hvalues.symm

theorem Correct.ends (hcorrect : service.Correct discipline right)
    (hunique : forall request reply state,
      right request reply -> reply = (direct request state).1)
    {state : σ} (hstate : discipline.invariant state) (clients : List (Program J α))
    (origin : τ) :
    service.Ends (.start clients state)
      (clients.map fun client => (client.run direct origin).1) := by
  intro turns hfair
  rcases exists_finished_of_fair service (.start clients state) hfair with
    ⟨outcomes, time, hfinished⟩
  have hsound := hcorrect.run (Pool.sound_start hstate clients) ((List.range time).map turns)
  have houtcomes := eq_map_of_finished hunique hsound (hfinished time (Nat.le_refl _)) origin
  rw [← houtcomes]
  exact ⟨time, hfinished⟩

end Values

end Service
end CilDisasm
