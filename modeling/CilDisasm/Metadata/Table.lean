import Std.Data.TreeMap
import CilDisasm.Metadata.Template

/-!
# Metadata

A metadata table holds method bodies by name and the strings, members and signatures that
tokens stand for. Adding under a key that is taken replaces what was there. Method names
are listed in ascending order.
-/

namespace CilDisasm

instance : Ord Token where
  compare left right := compare left.value right.value

instance : Std.TransOrd Token :=
  inferInstanceAs (Std.TransCmp (compareOn Token.value))

instance : Std.LawfulEqOrd Token where
  compare_self {token} := Std.ReflOrd.compare_self
  eq_of_compare {left right} h := by
    cases left
    cases right
    exact congrArg Token.mk (Std.LawfulEqOrd.eq_of_compare h)

structure Metadata where
  methods : Std.TreeMap String MethodBody
  strings : Std.TreeMap Token String
  members : Std.TreeMap Token Member
  signatures : Std.TreeMap Token Signature

namespace Metadata

def empty : Metadata :=
  { methods := {}, strings := {}, members := {}, signatures := {} }

def addMethod (metadata : Metadata) (name : String) (body : MethodBody) : Metadata :=
  { metadata with methods := metadata.methods.insert name body }

def addString (metadata : Metadata) (token : Token) (text : String) : Metadata :=
  { metadata with strings := metadata.strings.insert token text }

def addMember (metadata : Metadata) (token : Token) (member : Member) : Metadata :=
  { metadata with members := metadata.members.insert token member }

def addSignature (metadata : Metadata) (token : Token) (signature : Signature) :
    Metadata :=
  { metadata with signatures := metadata.signatures.insert token signature }

def methodNames (metadata : Metadata) : List String :=
  metadata.methods.keys

def methodBody? (metadata : Metadata) (name : String) : Option MethodBody :=
  metadata.methods[name]?

/-!
# Looking tokens up

The name of a member is a template, filled from the generic context of the query.
-/

def resolve (metadata : Metadata) : Resolver
  | .string token =>
      match metadata.strings[token]? with
      | some text => .ok text
      | none => .error { token := token, failure := .noSuchString }
  | .member token context =>
      match metadata.members[token]? with
      | some member =>
          match Template.instantiate member.name context with
          | .ok name => .ok { kind := member.kind, name := name }
          | .error failure => .error { token := token, failure := failure }
      | none => .error { token := token, failure := .noSuchMember }
  | .signature token =>
      match metadata.signatures[token]? with
      | some signature => .ok signature
      | none => .error { token := token, failure := .noSuchSignature }

theorem methodBody?_addMethod (metadata : Metadata) (name other : String)
    (body : MethodBody) :
    (metadata.addMethod name body).methodBody? other =
      if name = other then some body else metadata.methodBody? other := by
  simp [methodBody?, addMethod, Std.TreeMap.getElem?_insert]

theorem resolve_string_addString (metadata : Metadata) (token other : Token)
    (text : String) :
    (metadata.addString token text).resolve (.string other) =
      if token = other then .ok text else metadata.resolve (.string other) := by
  by_cases h : token = other
  · simp [resolve, addString, h]
  · simp [resolve, addString, Std.TreeMap.getElem?_insert, h]

end Metadata

end CilDisasm
