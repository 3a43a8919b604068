import CilDisasm.Text.Numeral

/-!
# Symbols

What a method body refers to and does not contain: tokens and the things they stand for,
and the variables and parameters that slots count. Each has one text in a listing.
-/

namespace CilDisasm

/-- A reference to a row of a metadata table. The table is in the high byte. -/
structure Token where
  value : UInt32
deriving DecidableEq, Repr, Inhabited

namespace Token

def table (token : Token) : UInt8 :=
  (token.value >>> 24).toUInt8

def row (token : Token) : UInt32 :=
  token.value &&& 0xFFFFFF

def text (token : Token) : String :=
  Numeral.markedHex 8 token.value.toNat

end Token

structure LocalVariable where
  index : UInt16
  typeName : String
  pinned : Bool
deriving DecidableEq, Repr

def LocalVariable.text (slot : LocalVariable) : String :=
  s!"{slot.typeName} ({slot.index})" ++ if slot.pinned then " (pinned)" else ""

structure Parameter where
  position : UInt16
  name : String
  typeName : String
deriving DecidableEq, Repr

def Parameter.text (parameter : Parameter) : String :=
  s!"{parameter.typeName} {parameter.name}"

/-- What an argument slot stands for. -/
inductive Argument where
  | receiver
  | parameter (parameter : Parameter)
deriving DecidableEq, Repr

def Argument.text : Argument -> String
  | receiver => "this"
  | parameter described => described.text

inductive MemberKind where
  | type
  | method
  | field
deriving DecidableEq, Repr

namespace MemberKind

def name : MemberKind -> String
  | type => "Type"
  | method => "Method"
  | field => "Field"

def ofName? (text : String) : Option MemberKind :=
  [type, method, field].find? (fun kind => kind.name = text)

end MemberKind

structure Member where
  kind : MemberKind
  name : String
deriving DecidableEq, Repr

def Member.text (member : Member) : String :=
  member.name

structure Signature where
  bytes : List UInt8
deriving DecidableEq, Repr

def Signature.text (signature : Signature) : String :=
  let bytes := signature.bytes.map (fun byte => Numeral.hex 2 byte.toNat)
  "(" ++ " ".intercalate bytes ++ ")"

/-- The arguments that stand for the generic parameters of a type and of a method. -/
structure GenericContext where
  typeArguments : List String
  methodArguments : List String
deriving DecidableEq, Repr

namespace GenericContext

def empty : GenericContext :=
  { typeArguments := [], methodArguments := [] }

end GenericContext

/-!
# Method bodies

In an instance method the receiver is argument zero and the parameters follow it.
-/

structure MethodBody where
  code : List UInt8
  locals : List LocalVariable
  parameters : List Parameter
  hasReceiver : Bool
  context : Option GenericContext
deriving DecidableEq, Repr

namespace MethodBody

def ofCode (code : List UInt8) : MethodBody :=
  { code := code, locals := [], parameters := [], hasReceiver := false, context := none }

def arguments (body : MethodBody) : List Argument :=
  let parameters := body.parameters.map Argument.parameter
  if body.hasReceiver then .receiver :: parameters else parameters

def argument? (body : MethodBody) (index : Nat) : Option Argument :=
  if body.hasReceiver then
    match index with
    | 0 => some .receiver
    | position + 1 => body.parameters[position]?.map .parameter
  else
    body.parameters[index]?.map .parameter

def argumentCount (body : MethodBody) : Nat :=
  body.parameters.length + if body.hasReceiver then 1 else 0

theorem argument?_eq (body : MethodBody) (index : Nat) :
    body.argument? index = body.arguments[index]? := by
  cases hreceiver : body.hasReceiver
  · simp [argument?, arguments, hreceiver]
  · cases index <;> simp [argument?, arguments, hreceiver]

theorem length_arguments (body : MethodBody) :
    body.arguments.length = body.argumentCount := by
  cases hreceiver : body.hasReceiver <;> simp [arguments, argumentCount, hreceiver]

end MethodBody

end CilDisasm
