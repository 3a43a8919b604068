import CilDisasm.Listing.Operand
import CilDisasm.Opcode.Basic

/-!
# Instructions

An instruction knows its position in the listing, the byte offset at which it starts, and
the positions of its neighbours.
-/

namespace CilDisasm

structure Instruction where
  index : Nat
  offset : Nat
  opcode : Opcode
  operand : Operand
  previous : Option Nat
  next : Option Nat
deriving DecidableEq, Repr

namespace Instruction

def label (instruction : Instruction) : Label :=
  { index := instruction.index, offset := instruction.offset }

/-- The number of operand bytes: a jump table has four for its count and four for each
entry, every other format a fixed number. -/
def operandSize (instruction : Instruction) : Nat :=
  match instruction.opcode.format, instruction.operand with
  | .switch, .switch targets => 4 * (1 + targets.length)
  | format, _ => format.width?.getD 4

def size (instruction : Instruction) : Nat :=
  instruction.opcode.size.toNat + instruction.operandSize

def text (instruction : Instruction) : String :=
  let head := instruction.label.text ++ ": " ++ instruction.opcode.name
  match instruction.operand with
  | .none => head
  | operand => head ++ " " ++ operand.text

def agrees (left right : Instruction) : Bool :=
  left.index = right.index && left.offset = right.offset && left.opcode = right.opcode &&
    left.operand.agrees right.operand && left.previous = right.previous &&
    left.next = right.next

/-- The destinations of a branch instruction. Other instructions have none, whatever
their operand. -/
def targets (instruction : Instruction) : List Target :=
  if instruction.opcode.format.isBranch then instruction.operand.targets else []

def mapTargets (change : Target -> Target) (instruction : Instruction) : Instruction :=
  if instruction.opcode.format.isBranch then
    { instruction with operand := instruction.operand.mapTargets change }
  else
    instruction

end Instruction

end CilDisasm
