import CilDisasm.Proofs.Cache.Entries
import CilDisasm.Proofs.Dialogue.Transparency

/-!
# Histories of a cached resolver

Requests are made one after the other. The source of symbols may answer differently from one
request to the next, so every request comes with the resolver that is in force when it is
made. An exchange keeps what came of a request and which queries went on to that resolver.
-/

namespace CilDisasm
namespace SymbolCache

structure Exchange where
  resolver : Resolver
  command : CacheCommand
  reply : commandInterface.Reply command
  asked : List Query

def Exchange.answered? : Exchange -> Option Query
  | ⟨_, .resolve query, .ok _, _⟩ => some query
  | _ => none

/-- The exchange that a request leads to, and the caches behind it. -/
def serve (cache : SymbolCache) (resolver : Resolver) (command : CacheCommand) :
    Exchange × SymbolCache :=
  let served := (execute command).run resolver.respondCached (cache, .empty)
  ({ resolver := resolver
     command := command
     reply := served.1
     asked := served.2.2.queries },
    served.2.1)

def exchanges (cache : SymbolCache) : List (Resolver × CacheCommand) -> List Exchange
  | [] => []
  | (resolver, command) :: rest =>
      (cache.serve resolver command).1 ::
        (cache.serve resolver command).2.exchanges rest

def after (cache : SymbolCache) (requests : List (Resolver × CacheCommand)) : SymbolCache :=
  requests.foldl (fun cache request => (cache.serve request.1 request.2).2) cache

/-!
# One request

A request finds its answer, or it goes on to the resolver and the answer is stored, or it
fails and leaves the caches as they are.
-/

inductive Serves (cache : SymbolCache) (resolver : Resolver) :
    Exchange -> SymbolCache -> Prop where
  | found {query : Query} {answer : query.Answer} {next : SymbolCache} :
      cache.get? query = (some answer, next) ->
      Serves cache resolver ⟨resolver, .resolve query, .ok answer, []⟩ next
  | stored {query : Query} {answer : query.Answer} :
      cache.get? query = (none, cache) ->
      resolver query = .ok answer ->
      Serves cache resolver ⟨resolver, .resolve query, .ok answer, [query]⟩
        (cache.insert query answer)
  | failed {query : Query} {error : ResolveError} :
      cache.get? query = (none, cache) ->
      resolver query = .error error ->
      Serves cache resolver ⟨resolver, .resolve query, .error error, [query]⟩ cache
  | cleared :
      Serves cache resolver ⟨resolver, .clear, (), []⟩
        (((cache.clearKind .string).clearKind .member).clearKind .signature)

theorem serves_serve (cache : SymbolCache) (resolver : Resolver) (command : CacheCommand) :
    cache.Serves resolver (cache.serve resolver command).1
      (cache.serve resolver command).2 := by
  cases command with
  | clear => exact Serves.cleared
  | resolve query =>
      cases hfound : (cache.get? query).1 with
      | some answer =>
          have hget : cache.get? query = (some answer, (cache.get? query).2) :=
            Prod.ext hfound rfl
          have hserve : cache.serve resolver (.resolve query) =
              (⟨resolver, .resolve query, .ok answer, []⟩, (cache.get? query).2) := by
            simp only [serve, execute, resolve, Program.run, Resolver.respondCached, hfound]
            rfl
          rw [hserve]
          exact Serves.found hget
      | none =>
          have hget := get?_eq_of_fst_eq_none hfound
          cases hsaid : resolver query with
          | ok answer =>
              have hserve : cache.serve resolver (.resolve query) =
                  (⟨resolver, .resolve query, .ok answer, [query]⟩,
                    cache.insert query answer) := by
                simp only [serve, execute, resolve, Program.run, Resolver.respondCached,
                  hget, hsaid]
                rfl
              rw [hserve]
              exact Serves.stored hget hsaid
          | error error =>
              have hserve : cache.serve resolver (.resolve query) =
                  (⟨resolver, .resolve query, .error error, [query]⟩, cache) := by
                simp only [serve, execute, resolve, Program.run, Resolver.respondCached,
                  hget, hsaid]
                rfl
              rw [hserve]
              exact Serves.failed hget hsaid

/-!
# Parts of a history
-/

theorem exists_request_of_exchanges_eq {cache : SymbolCache}
    {requests : List (Resolver × CacheCommand)} {past later : List Exchange}
    {exchange : Exchange} (h : cache.exchanges requests = past ++ exchange :: later) :
    exists first rest : List (Resolver × CacheCommand), exists request : Resolver × CacheCommand,
      requests = first ++ request :: rest ∧
        first.length = past.length ∧
        cache.exchanges first = past ∧
        (cache.after first).serve request.1 request.2 =
          (exchange, (cache.after (first ++ [request]))) ∧
        (cache.after (first ++ [request])).exchanges rest = later := by
  induction past generalizing cache requests with
  | nil =>
      cases requests with
      | nil => cases h
      | cons request rest =>
          rcases List.cons.inj h with ⟨rfl, rfl⟩
          exact ⟨[], rest, request, rfl, rfl, rfl, rfl, rfl⟩
  | cons earlier past ih =>
      cases requests with
      | nil => cases h
      | cons request rest =>
          rcases List.cons.inj h with ⟨rfl, hrest⟩
          rcases ih hrest with ⟨first, others, found, rfl, hlength, rfl, hserve, hlater⟩
          exact ⟨request :: first, others, found, rfl, congrArg Nat.succ hlength, rfl, hserve,
            hlater⟩

theorem exchanges_append (cache : SymbolCache) (first rest : List (Resolver × CacheCommand)) :
    cache.exchanges (first ++ rest) =
      cache.exchanges first ++ (cache.after first).exchanges rest := by
  induction first generalizing cache with
  | nil => rfl
  | cons request first ih =>
      rw [List.cons_append, exchanges, exchanges, ih]
      rfl

end SymbolCache

end CilDisasm
