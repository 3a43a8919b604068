import CilDisasm.Opcode.Basic
import CilDisasm.OpcodeTable.Entry

/-!
# Expansion of an opcode table

Expanding a table turns each entry into a constant and lists the constants in order. The
entries are checked one after the other, and of each entry first that its identifier is
new, then that it has a name, and last that its value can be encoded.
-/

namespace CilDisasm

inductive ExpansionError where
  | duplicateIdentifier
  | emptyName
  | negativeValue
  | valueTooLarge
  | unencodable (value : Nat)
deriving DecidableEq, Repr

def ExpansionError.message : ExpansionError -> String
  | duplicateIdentifier => "duplicate opcode identifier"
  | emptyName => "opcode name must not be empty"
  | negativeValue => "invalid digit found in string"
  | valueTooLarge => "number too large to fit in target type"
  | unencodable value =>
      s!"opcode {Numeral.markedHex 4 value} is neither one byte nor 0xFE-prefixed"

inductive OpcodeTableError where
  | malformed
  | expansion (error : ExpansionError)
deriving DecidableEq, Repr

/-- A constant of an expanded table. Format and class are the names that the entry gives,
which need not be names of the standard. -/
structure OpcodeConstant where
  identifier : String
  name : String
  value : UInt16
  size : UInt8
  format : String
  group : String
deriving DecidableEq, Repr

namespace OpcodeConstant

def description (constant : OpcodeConstant) : String :=
  "`" ++ constant.name ++ "` (" ++ Numeral.markedHex 2 constant.value.toNat ++ ")"

/-- The opcode of a constant whose format and class the standard knows. -/
def opcode? (constant : OpcodeConstant) : Option Opcode :=
  match OperandFormat.ofName? constant.format, OpcodeClass.ofName? constant.group with
  | some format, some group =>
      some
        { name := constant.name
          value := constant.value
          size := constant.size
          format := format
          group := group }
  | _, _ => none

end OpcodeConstant

namespace TableEntry

/-- The value of an entry and the number of bytes that encode it. -/
def encoding (entry : TableEntry) : Except ExpansionError (UInt16 × UInt8) :=
  if entry.negative then .error .negativeValue
  else if 0xFFFF < entry.magnitude then .error .valueTooLarge
  else if entry.magnitude ≤ 0xFF then .ok (UInt16.ofNat entry.magnitude, 1)
  else if entry.magnitude / 256 = 0xFE then .ok (UInt16.ofNat entry.magnitude, 2)
  else .error (.unencodable entry.magnitude)

/-- The constant of an entry that comes behind entries with the identifiers `taken`. -/
def constant (taken : List String) (entry : TableEntry) :
    Except ExpansionError OpcodeConstant :=
  if taken.contains entry.identifier then .error .duplicateIdentifier
  else if entry.name.isEmpty then .error .emptyName
  else
    match entry.encoding with
    | .error error => .error error
    | .ok (value, size) =>
        .ok
          { identifier := entry.identifier
            name := entry.name
            value := value
            size := size
            format := entry.format
            group := entry.group }

end TableEntry

namespace OpcodeTable

def expandFrom :
    List TableEntry -> (taken : List String) -> Array OpcodeConstant ->
      Except ExpansionError (Array OpcodeConstant)
  | [], _, done => .ok done
  | entry :: rest, taken, done =>
      match entry.constant taken with
      | .error error => .error error
      | .ok constant => expandFrom rest (entry.identifier :: taken) (done.push constant)

def expand (entries : List TableEntry) : Except ExpansionError (List OpcodeConstant) :=
  match expandFrom entries [] #[] with
  | .error error => .error error
  | .ok constants => .ok constants.toList

def definitions (constants : List OpcodeConstant) : List String :=
  constants.map OpcodeConstant.identifier

def entries? [Dialect] (text : String) : Option (List TableEntry) :=
  (Lexis.tokens text).bind TableEntry.all

def readIn (dialect : Dialect) (text : String) :
    Except OpcodeTableError (List OpcodeConstant) :=
  match entries? text with
  | none => .error .malformed
  | some entries =>
      match expand entries with
      | .error error => .error (.expansion error)
      | .ok constants => .ok constants

/-- The constants of a text that a lenient lexer reads. -/
def read (text : String) : Except OpcodeTableError (List OpcodeConstant) :=
  readIn (.unicode false) text

end OpcodeTable

end CilDisasm
