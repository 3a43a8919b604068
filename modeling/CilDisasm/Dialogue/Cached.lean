import CilDisasm.Cache.Symbols
import CilDisasm.Dialogue.Basic

/-!
# Dialogues through a cache

A query that the cache cannot answer is reported and passed on; a successful answer is
stored, a failure is not. Looking up, asking and storing are three requests, because other
users of the same cache may come between them.
-/

namespace CilDisasm

inductive CacheRequest where
  | lookup (query : Query)
  | ask (query : Query)
  | store (query : Query) (answer : query.Answer)
  | clear (kind : SymbolKind)
  | report (event : Event)

def cacheInterface : Interface where
  Request := CacheRequest
  Reply
    | .lookup query => Option query.Answer
    | .ask query => query.Outcome
    | .store _ _ => Unit
    | .clear _ => Unit
    | .report _ => Unit

namespace SymbolCache

def resolve (query : Query) : Program cacheInterface query.Outcome :=
  .call (.lookup query) fun
    | some answer => .done (.ok answer)
    | none =>
        .call (.report (.cacheMiss query)) fun _ =>
        .call (.ask query) fun
          | .ok answer => .call (.store query answer) fun _ => .done (.ok answer)
          | .error error => .done (.error error)

def clearAll : Program cacheInterface Unit :=
  .call (.clear .string) fun _ =>
  .call (.clear .member) fun _ =>
  .call (.clear .signature) fun _ =>
  .done ()

end SymbolCache

/-- What a request of a dialogue means when a cache stands in between. -/
def SymbolCache.answer : (request : DialogueRequest) ->
    Program cacheInterface (dialogueInterface.Reply request)
  | .resolve query => SymbolCache.resolve query
  | .report event => .call (.report event) .done

def Dialogue.cached {α : Type} (dialogue : Dialogue α) : Program cacheInterface α :=
  dialogue.interpret SymbolCache.answer

end CilDisasm
