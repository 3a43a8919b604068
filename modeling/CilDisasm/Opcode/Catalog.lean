import CilDisasm.Opcode.Standard

/-!
# Catalog

A catalog answers which opcode a code stands for. It is filled from a list of
definitions; internal entries are passed over, and an entry is refused when its value
cannot be written at its size or when its code is taken.
-/

namespace CilDisasm

inductive CatalogError where
  | collision (existing incoming : String) (value : UInt16)
  | invalidSize (name : String) (size : UInt8)
  | invalidEncoding (name : String) (value : UInt16) (size : UInt8)
deriving DecidableEq, Repr

def CatalogError.message : CatalogError -> String
  | collision existing incoming value =>
      s!"opcodes `{existing}` and `{incoming}` both encode to {Numeral.markedHex 4 value.toNat}"
  | invalidSize name size =>
      s!"opcode `{name}` has invalid encoded size {size}"
  | invalidEncoding name value size =>
      s!"opcode `{name}` value {Numeral.markedHex 4 value.toNat} cannot be encoded in {size} byte(s)"

structure Catalog where
  oneByte : Vector (Option Opcode) 256
  twoByte : Vector (Option Opcode) 256

namespace Catalog

def empty : Catalog :=
  { oneByte := Vector.replicate 256 none
    twoByte := Vector.replicate 256 none }

def lookup (catalog : Catalog) : OpcodeCode -> Option Opcode
  | .oneByte byte => catalog.oneByte[byte.toFin]
  | .twoByte byte => catalog.twoByte[byte.toFin]

def assign (catalog : Catalog) (opcode : Opcode) : OpcodeCode -> Catalog
  | .oneByte byte =>
      { catalog with oneByte := catalog.oneByte.set byte.toFin (some opcode) byte.toFin.isLt }
  | .twoByte byte =>
      { catalog with twoByte := catalog.twoByte.set byte.toFin (some opcode) byte.toFin.isLt }

def insert (catalog : Catalog) (opcode : Opcode) : Except CatalogError Catalog :=
  if opcode.size ≠ 1 ∧ opcode.size ≠ 2 then
    .error (.invalidSize opcode.name opcode.size)
  else
    match opcode.code? with
    | none => .error (.invalidEncoding opcode.name opcode.value opcode.size)
    | some code =>
        match catalog.lookup code with
        | some existing => .error (.collision existing.name opcode.name opcode.value)
        | none => .ok (catalog.assign opcode code)

def ofDefinitions (definitions : List Opcode) : Except CatalogError Catalog :=
  (definitions.filter (fun opcode => !opcode.isInternal)).foldlM insert empty

def standard : Catalog :=
  match ofDefinitions Opcode.standardSet with
  | .ok catalog => catalog
  | .error _ => empty

/-!
# Contents
-/

/-- All opcodes of the catalog, the one-byte codes first, each half in order of its byte. -/
def toList (catalog : Catalog) : List Opcode :=
  (catalog.oneByte.toList ++ catalog.twoByte.toList).filterMap id

def size (catalog : Catalog) : Nat :=
  catalog.toList.length

def isEmpty (catalog : Catalog) : Bool :=
  catalog.toList.isEmpty

def find? (catalog : Catalog) (name : String) : Option Opcode :=
  catalog.toList.find? (fun opcode => opcode.name = name)

theorem lookup_empty (code : OpcodeCode) : empty.lookup code = none := by
  cases code <;> simp [lookup, empty]

theorem lookup_assign (catalog : Catalog) (opcode : Opcode) (code other : OpcodeCode) :
    (catalog.assign opcode code).lookup other =
      if other = code then some opcode else catalog.lookup other := by
  cases code <;> cases other <;>
    simp [assign, lookup, Vector.getElem_set, UInt8.toNat_inj, eq_comm]

end Catalog

end CilDisasm
