import CilDisasm.Metadata.Symbol

/-!
# Queries

A query asks what a token stands for. The kind of query determines the type of the
answer. Members are looked up together with the generic arguments in force, because
their names may depend on them.
-/

namespace CilDisasm

inductive GenericLevel where
  | type
  | method
deriving DecidableEq, Repr

def GenericLevel.marker : GenericLevel -> String
  | type => "!"
  | method => "!!"

def GenericContext.argumentsOf (context : GenericContext) : GenericLevel -> List String
  | .type => context.typeArguments
  | .method => context.methodArguments

inductive ResolveFailure where
  | noSuchString
  | noSuchMember
  | noSuchSignature
  | parameterOverflow
  | noGenericArgument (level : GenericLevel) (number : Nat)
  | other (reason : String)
deriving DecidableEq, Repr

def ResolveFailure.reason : ResolveFailure -> String
  | noSuchString => "no such string"
  | noSuchMember => "no such member"
  | noSuchSignature => "no such signature"
  | parameterOverflow => "generic parameter index overflows"
  | noGenericArgument level number =>
      s!"no generic argument for {level.marker}{number}"
  | other reason => reason

structure ResolveError where
  token : Token
  failure : ResolveFailure
deriving DecidableEq, Repr

def ResolveError.message (error : ResolveError) : String :=
  s!"cannot resolve token {error.token.text}: {error.failure.reason}"

inductive Query where
  | string (token : Token)
  | member (token : Token) (context : Option GenericContext)
  | signature (token : Token)
deriving DecidableEq, Repr

namespace Query

abbrev Answer : Query -> Type
  | string _ => String
  | member _ _ => Member
  | signature _ => Signature

abbrev Outcome (query : Query) : Type :=
  Except ResolveError query.Answer

def token : Query -> Token
  | string token => token
  | member token _ => token
  | signature token => token

def kindName : Query -> String
  | string _ => "string"
  | member _ _ => "member"
  | signature _ => "signature"

end Query

/-- A source of symbols whose answers depend on the query alone. -/
abbrev Resolver : Type :=
  (query : Query) -> query.Outcome

end CilDisasm
