import CilDisasm.Cache.Lru
import CilDisasm.Metadata.Query

/-!
# Symbol cache

Answers are remembered in three caches of one capacity, one for each kind of query. A
member is remembered under its token and the generic context that it was asked for with.
-/

namespace CilDisasm

inductive SymbolKind where
  | string
  | member
  | signature
deriving DecidableEq, Repr

def Query.kind : Query -> SymbolKind
  | string _ => .string
  | member _ _ => .member
  | signature _ => .signature

structure SymbolCache where
  strings : Lru Token String
  members : Lru (Token × Option GenericContext) Member
  signatures : Lru Token Signature

namespace SymbolCache

def empty (capacity : Nat) : SymbolCache :=
  { strings := .empty capacity, members := .empty capacity, signatures := .empty capacity }

def get? (cache : SymbolCache) : (query : Query) -> Option query.Answer × SymbolCache
  | .string token =>
      let (answer, strings) := cache.strings.get? token
      (answer, { cache with strings := strings })
  | .member token context =>
      let (answer, members) := cache.members.get? (token, context)
      (answer, { cache with members := members })
  | .signature token =>
      let (answer, signatures) := cache.signatures.get? token
      (answer, { cache with signatures := signatures })

def insert (cache : SymbolCache) : (query : Query) -> query.Answer -> SymbolCache
  | .string token, answer =>
      { cache with strings := cache.strings.insert token answer }
  | .member token context, answer =>
      { cache with members := cache.members.insert (token, context) answer }
  | .signature token, answer =>
      { cache with signatures := cache.signatures.insert token answer }

def clearKind (cache : SymbolCache) : SymbolKind -> SymbolCache
  | .string => { cache with strings := cache.strings.clear }
  | .member => { cache with members := cache.members.clear }
  | .signature => { cache with signatures := cache.signatures.clear }

end SymbolCache

end CilDisasm
