import CilDisasm.Text.Numeral

/-!
# Opcodes

An opcode of the common intermediate language has a name, a numeric value, a number of
bytes that it takes in a method body, a format for the operand that follows it, and a
class. Formats and classes have the names that the standard gives them.
-/

namespace CilDisasm

/-- The layout of the bytes behind an opcode. `phi` is reserved and has no layout. -/
inductive OperandFormat where
  | none
  | shortInt
  | int
  | long
  | shortFloat
  | float
  | shortBranch
  | branch
  | switch
  | string
  | type
  | method
  | field
  | member
  | signature
  | shortLocalSlot
  | localSlot
  | shortArgumentSlot
  | argumentSlot
  | phi
deriving DecidableEq, Repr, Inhabited

namespace OperandFormat

def all : List OperandFormat :=
  [none, shortInt, int, long, shortFloat, float, shortBranch, branch, switch, string,
    type, method, field, member, signature, shortLocalSlot, localSlot, shortArgumentSlot,
    argumentSlot, phi]

def name : OperandFormat -> String
  | none => "InlineNone"
  | shortInt => "ShortInlineI"
  | int => "InlineI"
  | long => "InlineI8"
  | shortFloat => "ShortInlineR"
  | float => "InlineR"
  | shortBranch => "ShortInlineBrTarget"
  | branch => "InlineBrTarget"
  | switch => "InlineSwitch"
  | string => "InlineString"
  | type => "InlineType"
  | method => "InlineMethod"
  | field => "InlineField"
  | member => "InlineTok"
  | signature => "InlineSig"
  | shortLocalSlot => "ShortInlineLocal"
  | localSlot => "InlineLocal"
  | shortArgumentSlot => "ShortInlineArg"
  | argumentSlot => "InlineArg"
  | phi => "InlinePhi"

def ofName? (text : String) : Option OperandFormat :=
  all.find? (fun format => format.name = text)

/-- The number of operand bytes. A jump table has no fixed number of them. -/
def width? : OperandFormat -> Option Nat
  | none | phi => some 0
  | shortInt | shortBranch | shortLocalSlot | shortArgumentSlot => some 1
  | localSlot | argumentSlot => some 2
  | int | shortFloat | branch | string | type | method | field | member | signature =>
      some 4
  | long | float => some 8
  | switch => Option.none

def isBranch : OperandFormat -> Bool
  | shortBranch | branch | switch => true
  | _ => false

theorem ofName?_name (format : OperandFormat) : ofName? format.name = some format := by
  cases format <;> decide

end OperandFormat

/-- The groups into which the standard sorts opcodes. An `internal` entry describes the
encoding itself and is never met as an instruction. -/
inductive OpcodeClass where
  | primitive
  | shorthand
  | modifier
  | objectModel
  | marker
  | internal
deriving DecidableEq, Repr, Inhabited

namespace OpcodeClass

def all : List OpcodeClass :=
  [primitive, shorthand, modifier, objectModel, marker, internal]

def name : OpcodeClass -> String
  | primitive => "Primitive"
  | shorthand => "Macro"
  | modifier => "Prefix"
  | objectModel => "ObjModel"
  | marker => "Annotation"
  | internal => "Internal"

def ofName? (text : String) : Option OpcodeClass :=
  all.find? (fun group => group.name = text)

theorem ofName?_name (group : OpcodeClass) : ofName? group.name = some group := by
  cases group <;> decide

end OpcodeClass

structure Opcode where
  name : String
  value : UInt16
  size : UInt8
  format : OperandFormat
  group : OpcodeClass
deriving DecidableEq, Repr, Inhabited

/-!
# Encoding

A value up to `0xFF` is encoded as one byte. Other values have the high byte `0xFE`,
which announces a second byte, so `0xFE` alone stands for no opcode.
-/

def extensionByte : UInt8 :=
  0xFE

/-- The bytes that stand for an opcode, without the announcing byte. -/
inductive OpcodeCode where
  | oneByte (byte : UInt8)
  | twoByte (byte : UInt8)
deriving DecidableEq, Repr

namespace OpcodeCode

def bytes : OpcodeCode -> List UInt8
  | oneByte byte => [byte]
  | twoByte byte => [extensionByte, byte]

def value : OpcodeCode -> UInt16
  | oneByte byte => byte.toUInt16
  | twoByte byte => 0xFE00 + byte.toUInt16

end OpcodeCode

namespace Opcode

def lowByte (opcode : Opcode) : UInt8 :=
  opcode.value.toUInt8

def highByte (opcode : Opcode) : UInt8 :=
  (opcode.value >>> 8).toUInt8

def isInternal (opcode : Opcode) : Bool :=
  opcode.group = .internal

/-- The code of an opcode whose value can be written at its size. -/
def code? (opcode : Opcode) : Option OpcodeCode :=
  if opcode.size = 1 ∧ opcode.value ≤ 0xFF ∧ opcode.value ≠ 0xFE then
    some (.oneByte opcode.lowByte)
  else if opcode.size = 2 ∧ opcode.highByte = extensionByte then
    some (.twoByte opcode.lowByte)
  else
    none

def bytes (opcode : Opcode) : List UInt8 :=
  if opcode.size = 2 then [extensionByte, opcode.lowByte] else [opcode.lowByte]

theorem bytes_of_code? {opcode : Opcode} {code : OpcodeCode}
    (h : opcode.code? = some code) : opcode.bytes = code.bytes := by
  unfold code? at h
  split at h
  · next hone =>
      cases h
      simp [bytes, OpcodeCode.bytes, hone.1]
  · split at h
    · next htwo =>
        cases h
        simp [bytes, OpcodeCode.bytes, htwo.1]
    · cases h

/-- An opcode takes one byte up to the value `0xFF`, and two bytes above it. -/
def ofValue (name : String) (value : UInt16) (format : OperandFormat)
    (group : OpcodeClass) : Opcode :=
  { name := name
    value := value
    size := if value ≤ 0xFF then 1 else 2
    format := format
    group := group }

end Opcode

end CilDisasm
