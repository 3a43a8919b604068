import CilDisasm.Sample
import CilDisasm.Proofs.Cache.Soundness
import CilDisasm.Proofs.Program.Termination

/-!
# Caches are transparent

Clients of a resolver with caches look up, ask and store in separate steps, and others may
come between them: two clients may miss the same entry and both store it, and an entry may be
dropped or cleared before it is found again. All of them only store what the resolver
answered. So the caches stay sound, whoever finds an entry finds the answer of the resolver,
and nobody can tell from a reply that there are caches.
-/

namespace CilDisasm

/-!
# Commands
-/

inductive CacheCommand where
  | resolve (query : Query)
  | clear
deriving DecidableEq, Repr

def commandInterface : Interface where
  Request := CacheCommand
  Reply
    | .resolve query => query.Outcome
    | .clear => Unit

def SymbolCache.execute : (command : CacheCommand) ->
    Program cacheInterface (commandInterface.Reply command)
  | .resolve query => SymbolCache.resolve query
  | .clear => SymbolCache.clearAll

namespace Resolver

/-- Requests that are carried out on shared caches. -/
def cachedService (resolver : Resolver) {J : Interface}
    (meaning : (request : J.Request) -> Program cacheInterface (J.Reply request)) :
    Service J cacheInterface (SymbolCache × Transcript) where
  meaning := meaning
  respond := resolver.respondCached

def commandService (resolver : Resolver) :
    Service commandInterface cacheInterface (SymbolCache × Transcript) :=
  resolver.cachedService SymbolCache.execute

def dialogueService (resolver : Resolver) :
    Service dialogueInterface cacheInterface (SymbolCache × Transcript) :=
  resolver.cachedService SymbolCache.answer

def respondCommand (resolver : Resolver) : Program.Responder commandInterface Unit
  | .resolve query, state => (resolver query, state)
  | .clear, state => ((), state)

def RightCommand (resolver : Resolver) :
    (command : commandInterface.Request) -> commandInterface.Reply command -> Prop
  | .resolve query, outcome => resolver query = outcome
  | .clear, _ => True

/-!
# Steps on the caches
-/

/-- Only answers of the resolver are stored, so only they are found. -/
def discipline (resolver : Resolver) (capacity : Nat) :
    Discipline cacheInterface (SymbolCache × Transcript) where
  invariant state := state.1.Sound resolver capacity
  permitted
    | .store query answer => resolver query = .ok answer
    | _ => True
  allowed
    | .lookup query, found => forall answer, found = some answer -> resolver query = .ok answer
    | .ask query, outcome => resolver query = outcome
    | .store _ _, _ => True
    | .clear _, _ => True
    | .report _, _ => True

variable {resolver : Resolver} {capacity : Nat} {state : SymbolCache × Transcript}

theorem allowed_respondCached {request : cacheInterface.Request}
    (hstate : (resolver.discipline capacity).invariant state) :
    (resolver.discipline capacity).allowed request (resolver.respondCached request state).1 := by
  cases request with
  | lookup query =>
      intro answer hanswer
      exact SymbolCache.Sound.ok_of_get? hstate hanswer
  | ask query => rfl
  | store query answer => trivial
  | clear kind => trivial
  | report event => trivial

theorem invariant_respondCached {request : cacheInterface.Request}
    (hstate : (resolver.discipline capacity).invariant state)
    (hpermitted : (resolver.discipline capacity).permitted request) :
    (resolver.discipline capacity).invariant (resolver.respondCached request state).2 := by
  cases request with
  | lookup query => exact SymbolCache.Sound.get? hstate query
  | ask query => exact hstate
  | store query answer => exact SymbolCache.Sound.insert hstate hpermitted
  | clear kind => exact SymbolCache.Sound.clearKind hstate kind
  | report event => exact hstate

/-!
# Requests of clients
-/

theorem respects_resolve (query : Query) :
    (SymbolCache.resolve query).Respects (resolver.discipline capacity) := by
  refine ⟨trivial, ?_⟩
  intro found hfound
  cases found with
  | some answer => trivial
  | none =>
      -- What is stored is what the resolver was asked for, whatever happened since the lookup.
      refine ⟨trivial, fun _ _ => ⟨trivial, ?_⟩⟩
      intro outcome houtcome
      cases outcome with
      | ok answer => exact ⟨houtcome, fun _ _ => trivial⟩
      | error error => trivial

theorem eq_of_returns_resolve {query : Query} {outcome : query.Outcome}
    (h : (SymbolCache.resolve query).Returns (resolver.discipline capacity).allowed outcome) :
    resolver query = outcome := by
  rcases Program.returns_call_iff.mp h with ⟨found, hfound, hrest⟩
  cases found with
  | some answer =>
      rw [Program.returns_done_iff.mp hrest]
      exact hfound answer rfl
  | none =>
      rcases Program.returns_call_iff.mp hrest with ⟨_, -, hmiss⟩
      rcases Program.returns_call_iff.mp hmiss with ⟨reply, hreply, hlast⟩
      cases reply with
      | ok answer =>
          rcases Program.returns_call_iff.mp hlast with ⟨_, -, hdone⟩
          rw [Program.returns_done_iff.mp hdone]
          exact hreply
      | error error =>
          rw [Program.returns_done_iff.mp hlast]
          exact hreply

/-- The steps on the caches are the same whatever they are taken for. -/
theorem correct_cachedService {J : Interface}
    {meaning : (request : J.Request) -> Program cacheInterface (J.Reply request)}
    {right : (request : J.Request) -> J.Reply request -> Prop}
    (hrespects : forall request, (meaning request).Respects (resolver.discipline capacity))
    (hright : forall {request : J.Request} {reply : J.Reply request},
      (meaning request).Returns (resolver.discipline capacity).allowed reply ->
        right request reply) :
    (resolver.cachedService meaning).Correct (resolver.discipline capacity) right where
  allowed := fun hstate _ => allowed_respondCached hstate
  invariant := invariant_respondCached
  respects := hrespects
  right := hright

theorem correct_commandService (resolver : Resolver) (capacity : Nat) :
    resolver.commandService.Correct (resolver.discipline capacity) resolver.RightCommand := by
  apply correct_cachedService
  · intro command
    cases command with
    | resolve query => exact respects_resolve query
    | clear => exact ⟨trivial, fun _ _ => ⟨trivial, fun _ _ => ⟨trivial, fun _ _ => trivial⟩⟩⟩
  · intro command reply hreturns
    cases command with
    | resolve query => exact eq_of_returns_resolve hreturns
    | clear => trivial

theorem eq_respondCommand_of_right :
    forall (command : commandInterface.Request) (reply : commandInterface.Reply command)
      (state : Unit),
      resolver.RightCommand command reply -> reply = (resolver.respondCommand command state).1 := by
  intro command reply state hreply
  cases command with
  | resolve query => exact Eq.symm hreply
  | clear => rfl

theorem correct_dialogueService (resolver : Resolver) (capacity : Nat) :
    resolver.dialogueService.Correct (resolver.discipline capacity)
      (Oracle.ofResolver resolver).Allows := by
  apply correct_cachedService
  · intro request
    cases request with
    | resolve query => exact respects_resolve query
    | report event => exact ⟨trivial, fun _ _ => trivial⟩
  · intro request reply hreturns
    cases request with
    | resolve query => exact eq_of_returns_resolve hreturns
    | report event => trivial

end Resolver

/-!
# Disassembling side by side
-/

namespace MethodSource

variable {μ : Type} [ToString μ]

/-- One method of a batch. The outcome carries the method along. -/
def job (source : MethodSource μ) (method : μ) :
    Dialogue (μ × Except DecodeError Listing) :=
  (source.disassemble method).bind fun outcome => .done (method, outcome)

theorem result_job (source : MethodSource μ) (resolver : Resolver) (method : μ) :
    (source.job method).result resolver =
      (method, (source.disassemble method).result resolver) := by
  rw [Dialogue.result, job, Program.run_bind]
  rfl

theorem result_disassembleAll (source : MethodSource μ) (resolver : Resolver)
    (methods : List μ) :
    (source.disassembleAll methods).result resolver =
      methods.map fun method => (method, (source.disassemble method).result resolver) := by
  induction methods with
  | nil => rfl
  | cons method rest ih =>
      rw [Dialogue.result] at ih
      rw [Dialogue.result, disassembleAll, Program.run_bind, Program.run_bind, ih]
      rfl

end MethodSource

namespace SymbolCache

/-- Clients that share caches cannot tell them from the resolver, in whatever order they take
their steps: the caches stay sound, every reply is the resolver's, and methods that are
disassembled side by side have the outcomes they have alone. -/
theorem transparent_of_sound {resolver : Resolver} {capacity : Nat} {cache : SymbolCache}
    (hcache : cache.Sound resolver capacity) (transcript : Transcript) :
    (forall {α : Type} (clients : List (Program commandInterface α)),
        (forall schedule : List Nat,
          let pool := resolver.commandService.run (.start clients (cache, transcript)) schedule
          pool.state.1.Sound resolver capacity ∧
            forall (query : Query) (outcome : query.Outcome),
              ⟨.resolve query, outcome⟩ ∈ pool.served -> outcome = resolver query) ∧
          resolver.commandService.Ends (.start clients (cache, transcript))
            (clients.map fun client => (client.run resolver.respondCommand ()).1)) ∧
      forall {μ : Type} [ToString μ] (source : MethodSource μ) (methods : List μ),
        (forall schedule : List Nat,
          let pool := resolver.dialogueService.run
            (.start (methods.map source.job) (cache, transcript)) schedule
          pool.state.1.Sound resolver capacity ∧
            forall outcomes, pool.Finished outcomes ->
              outcomes = methods.map fun method =>
                (method, (source.disassemble method).result resolver)) ∧
          resolver.dialogueService.Ends (.start (methods.map source.job) (cache, transcript))
            (methods.map fun method =>
              (method, (source.disassemble method).result resolver)) := by
  have hstate : (resolver.discipline capacity).invariant (cache, transcript) := hcache
  have hcommands := resolver.correct_commandService capacity
  have hdialogues := resolver.correct_dialogueService capacity
  constructor
  · intro α clients
    refine ⟨?_, hcommands.ends Resolver.eq_respondCommand_of_right hstate clients ()⟩
    intro schedule
    have hsound := hcommands.run (Pool.sound_start hstate clients) schedule
    exact ⟨hsound.invariant, fun query outcome hserved => (hsound.served hserved).symm⟩
  · intro μ _ source methods
    have halone : (methods.map source.job).map (fun job => job.result resolver) =
        methods.map fun method => (method, (source.disassemble method).result resolver) := by
      rw [List.map_map]
      exact List.map_congr_left fun method _ => source.result_job resolver method
    rw [← halone]
    constructor
    · intro schedule
      have hsound := hdialogues.run (Pool.sound_start hstate (methods.map source.job)) schedule
      exact ⟨hsound.invariant, fun outcomes hfinished =>
        Service.eq_map_of_finished Oracle.eq_respondOnly_of_allows hsound hfinished ()⟩
    · exact hdialogues.ends Oracle.eq_respondOnly_of_allows hstate (methods.map source.job) ()

def asking : Program commandInterface Unit :=
  .call (.resolve (.string Sample.labelToken)) fun _ => .done ()

def clearing : Program commandInterface Unit :=
  .call .clear fun _ => .done ()

/-- Two clients miss the same entry and ask for it. One stores the answer, it is cleared, and
then the other one stores it again. -/
def race : Pool commandInterface cacheInterface (SymbolCache × Transcript) Unit :=
  Sample.metadata.resolve.commandService.run
    (.start [asking, asking, clearing] (.empty 1, .empty))
    [0, 1, 0, 1, 0, 1, 0, 1, 0, 2, 2, 2, 2, 1, 0, 1]

/-- The caches of the race, and a batch in which one method comes twice and one is missing. -/
theorem transparent_of_sound_race :
    (race.state.2.queries = [.string Sample.labelToken, .string Sample.labelToken] ∧
        race.state.1.strings.keys = [Sample.labelToken] ∧
        race.state.1.Sound Sample.metadata.resolve 1) ∧
      exists time : Nat, forall later, time ≤ later ->
        (Sample.metadata.resolve.dialogueService.run
          (.start (["Program::Loop", "Program::Missing", "Program::Loop"].map
              (MethodSource.job Sample.metadata.methodBody?)) (.empty 1, .empty))
          ((List.range later).map (· % 3))).Finished
            (["Program::Loop", "Program::Missing", "Program::Loop"].map fun method =>
              (method,
                (MethodSource.disassemble Sample.metadata.methodBody? method).result
                  Sample.metadata.resolve)) := by
  have htransparent := transparent_of_sound (Sound.empty Sample.metadata.resolve 1) .empty
  constructor
  · refine ⟨by decide +kernel, by decide +kernel, ?_⟩
    exact ((htransparent.1 [asking, asking, clearing]).1 _).1
  · have hmethods := htransparent.2 Sample.metadata.methodBody?
      ["Program::Loop", "Program::Missing", "Program::Loop"]
    exact hmethods.2 _ (Service.fair_mod 3)

end SymbolCache

end CilDisasm
