import CilDisasm.Float.Text
import CilDisasm.Metadata.Symbol

/-!
# Labels and targets

A label names an instruction of a listing by its position and its byte offset. The target
of a branch is a label when an instruction starts at the branch's destination, and the
bare offset otherwise; an offset in front of the method body is negative.
-/

namespace CilDisasm

structure Label where
  index : Nat
  offset : Nat
deriving DecidableEq, Repr

def labelText (offset : Nat) : String :=
  "IL_" ++ Numeral.hex 4 offset

def Label.text (label : Label) : String :=
  labelText label.offset

inductive Target where
  | resolved (label : Label)
  | unresolved (offset : Int)
deriving DecidableEq, Repr

namespace Target

def label? : Target -> Option Label
  | resolved label => some label
  | unresolved _ => none

def offset : Target -> Int
  | resolved label => label.offset
  | unresolved offset => offset

def isResolved : Target -> Bool
  | resolved _ => true
  | unresolved _ => false

def text : Target -> String
  | resolved label => label.text
  | unresolved (.ofNat offset) => s!"<unresolved {labelText offset}>"
  | unresolved (.negSucc distance) => s!"<unresolved -{distance + 1}>"

end Target

/-!
# Operands

Operands compare as the values they hold: floats as numbers, everything else by identity.
-/

inductive Operand where
  | none
  | int8 (value : Int8)
  | uint8 (value : UInt8)
  | int32 (value : Int32)
  | int64 (value : Int64)
  | float32 (value : Binary32)
  | float64 (value : Binary64)
  | branch (target : Target)
  | switch (targets : List Target)
  | string (text : String)
  | member (member : Member)
  | signature (signature : Signature)
  | localVariable (slot : LocalVariable)
  | argument (argument : Argument)
deriving DecidableEq, Repr

namespace Operand

def text : Operand -> String
  | none => ""
  | int8 value => toString value.toInt
  | uint8 value => toString value.toNat
  | int32 value => toString value.toInt
  | int64 value => toString value.toInt
  | float32 value => value.text
  | float64 value => value.text
  | branch target => target.text
  | switch targets => ",".intercalate (targets.map Target.text)
  | string text => "\"" ++ text ++ "\""
  | member referred => referred.text
  | signature blob => blob.text
  | localVariable slot => slot.text
  | argument described => described.text

def agrees : Operand -> Operand -> Bool
  | float32 left, float32 right => left.agrees right
  | float64 left, float64 right => left.agrees right
  | left, right => left = right

def targets : Operand -> List Target
  | branch target => [target]
  | switch targets => targets
  | _ => []

def mapTargets (change : Target -> Target) : Operand -> Operand
  | branch target => branch (change target)
  | switch targets => switch (targets.map change)
  | operand => operand

end Operand

end CilDisasm
