import CilDisasm.Decoding.Segment
import CilDisasm.Metadata.Query

/-!
# Decoding errors

Each error ends the decoding of one method body. All but the first and the last name the
offset of the instruction that they concern, or the position of the read that failed.
-/

namespace CilDisasm

inductive SlotKind where
  | localVariable
  | argument
deriving DecidableEq, Repr

def SlotKind.text : SlotKind -> String
  | localVariable => "local"
  | argument => "argument"

inductive DecodeError where
  | noBody (method : String)
  | outOfRange (error : OutOfRange)
  | unknownOpcode (value : UInt16) (offset : Nat)
  | unsupportedOperand (opcode : String) (format : OperandFormat) (offset : Nat)
  | symbol (offset : Nat) (error : ResolveError)
  | slotOutOfRange (kind : SlotKind) (index : UInt16) (count offset : Nat)
  | bodyTooLarge (length : Nat)
deriving DecidableEq, Repr

namespace DecodeError

def message : DecodeError -> String
  | noBody method => s!"method `{method}` has no body"
  | outOfRange error => error.message
  | unknownOpcode value offset =>
      s!"unknown opcode {Numeral.markedHex 4 value.toNat} at offset {offset}"
  | unsupportedOperand opcode format offset =>
      s!"unsupported operand kind {format.name} for `{opcode}` at offset {offset}"
  | symbol offset error =>
      s!"symbol resolution failed at offset {offset}: {error.message}"
  | slotOutOfRange kind index count offset =>
      s!"{kind.text} index {index} out of range ({count} declared) at offset {offset}"
  | bodyTooLarge length =>
      s!"method body of {length} bytes exceeds the addressable offset range"

def ofFault (offset : Nat) : SegmentFault -> DecodeError
  | .outOfRange error => outOfRange error
  | .unknownOpcode value => unknownOpcode value offset
  | .unsupportedOperand opcode => unsupportedOperand opcode.name opcode.format offset

end DecodeError

end CilDisasm
