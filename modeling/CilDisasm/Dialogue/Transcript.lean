import CilDisasm.Dialogue.Cached

/-!
# Transcripts

A transcript holds the queries that reached the source of symbols and the reported events,
the latest first.
-/

namespace CilDisasm

structure Transcript where
  queriesReversed : List Query
  eventsReversed : List Event

namespace Transcript

def empty : Transcript :=
  { queriesReversed := [], eventsReversed := [] }

def queries (transcript : Transcript) : List Query :=
  transcript.queriesReversed.reverse

def events (transcript : Transcript) : List Event :=
  transcript.eventsReversed.reverse

def addQuery (transcript : Transcript) (query : Query) : Transcript :=
  { transcript with queriesReversed := query :: transcript.queriesReversed }

def addEvent (transcript : Transcript) (event : Event) : Transcript :=
  { transcript with eventsReversed := event :: transcript.eventsReversed }

end Transcript

/-- Answers a dialogue from a resolver that depends on the query alone. -/
def Resolver.respond (resolver : Resolver) : Program.Responder dialogueInterface Transcript
  | .resolve query, transcript => (resolver query, transcript.addQuery query)
  | .report event, transcript => ((), transcript.addEvent event)

def Resolver.respondOnly (resolver : Resolver) : Program.Responder dialogueInterface Unit
  | .resolve query, state => (resolver query, state)
  | .report _, state => ((), state)

def Resolver.respondCached (resolver : Resolver) :
    Program.Responder cacheInterface (SymbolCache × Transcript)
  | .lookup query, (cache, transcript) =>
      let (answer, cache) := cache.get? query
      (answer, cache, transcript)
  | .ask query, (cache, transcript) =>
      (resolver query, cache, transcript.addQuery query)
  | .store query answer, (cache, transcript) =>
      ((), cache.insert query answer, transcript)
  | .clear kind, (cache, transcript) => ((), cache.clearKind kind, transcript)
  | .report event, (cache, transcript) => ((), cache, transcript.addEvent event)

namespace Dialogue

variable {α : Type}

def consult (dialogue : Dialogue α) (resolver : Resolver) : α × Transcript :=
  dialogue.run resolver.respond .empty

/-- What a dialogue comes to when nobody follows it. -/
def result (dialogue : Dialogue α) (resolver : Resolver) : α :=
  (dialogue.run resolver.respondOnly ()).1

def consultCached (dialogue : Dialogue α) (resolver : Resolver) (cache : SymbolCache) :
    α × SymbolCache × Transcript :=
  dialogue.cached.run resolver.respondCached (cache, .empty)

end Dialogue

end CilDisasm
