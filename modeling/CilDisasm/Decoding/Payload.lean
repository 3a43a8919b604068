import CilDisasm.Bytes.Cursor
import CilDisasm.Metadata.Symbol
import CilDisasm.Opcode.Catalog

/-!
# Payloads

The payload of an instruction is what its operand bytes say by themselves: immediates,
distances of branches, tokens and slot numbers, before any of them is looked up. Which
payload an opcode has follows from its format, except that the one-byte integer is signed
for the single opcode that loads it and unsigned for all others.
-/

namespace CilDisasm

inductive Payload where
  | none
  | int8 (value : Int8)
  | uint8 (value : UInt8)
  | int32 (value : Int32)
  | int64 (value : Int64)
  | float32 (value : Binary32)
  | float64 (value : Binary64)
  | shortBranch (distance : Int8)
  | branch (distance : Int32)
  | switch (distances : List Int32)
  | string (token : Token)
  | member (token : Token)
  | signature (token : Token)
  | shortLocalSlot (index : UInt8)
  | localSlot (index : UInt16)
  | shortArgumentSlot (index : UInt8)
  | argumentSlot (index : UInt16)
deriving DecidableEq, Repr

namespace Payload

def bytes : Payload -> List UInt8
  | none => []
  | int8 value => Word.toBytes value
  | uint8 value => Word.toBytes value
  | int32 value => Word.toBytes value
  | int64 value => Word.toBytes value
  | float32 value => Word.toBytes value
  | float64 value => Word.toBytes value
  | shortBranch distance => Word.toBytes distance
  | branch distance => Word.toBytes distance
  | switch distances =>
      Word.toBytes (UInt32.ofNat distances.length) ++ distances.flatMap Word.toBytes
  | string token => Word.toBytes token.value
  | member token => Word.toBytes token.value
  | signature token => Word.toBytes token.value
  | shortLocalSlot index => Word.toBytes index
  | localSlot index => Word.toBytes index
  | shortArgumentSlot index => Word.toBytes index
  | argumentSlot index => Word.toBytes index

end Payload

inductive SegmentFault where
  | outOfRange (error : OutOfRange)
  | unknownOpcode (value : UInt16)
  | unsupportedOperand (opcode : Opcode)
deriving DecidableEq, Repr

namespace Payload

def readWord (α : Type) [Word α] (make : α -> Payload) (cursor : Cursor) :
    Except SegmentFault (Payload × Cursor) :=
  match Cursor.read α cursor with
  | .ok (value, next) => .ok (make value, next)
  | .error error => .error (.outOfRange error)

/-- Reads a jump table. Once the count is known the whole table has to be there, before
any entry is read. -/
def readSwitch (cursor : Cursor) : Except SegmentFault (Payload × Cursor) :=
  match Cursor.read UInt32 cursor with
  | .error error => .error (.outOfRange error)
  | .ok (count, entries) =>
      match Cursor.ensure (4 * count.toNat) entries with
      | .error error => .error (.outOfRange error)
      | .ok _ =>
          match Cursor.readMany Int32 count.toNat #[] entries with
          | .error error => .error (.outOfRange error)
          | .ok (distances, next) => .ok (.switch distances.toList, next)

def read (opcode : Opcode) (cursor : Cursor) : Except SegmentFault (Payload × Cursor) :=
  match opcode.format with
  | .none => .ok (.none, cursor)
  | .shortInt =>
      if opcode.loadsSignedByte then readWord Int8 .int8 cursor
      else readWord UInt8 .uint8 cursor
  | .int => readWord Int32 .int32 cursor
  | .long => readWord Int64 .int64 cursor
  | .shortFloat => readWord Binary32 .float32 cursor
  | .float => readWord Binary64 .float64 cursor
  | .shortBranch => readWord Int8 .shortBranch cursor
  | .branch => readWord Int32 .branch cursor
  | .switch => readSwitch cursor
  | .string => readWord UInt32 (fun value => .string ⟨value⟩) cursor
  | .type | .method | .field | .member =>
      readWord UInt32 (fun value => .member ⟨value⟩) cursor
  | .signature => readWord UInt32 (fun value => .signature ⟨value⟩) cursor
  | .shortLocalSlot => readWord UInt8 .shortLocalSlot cursor
  | .localSlot => readWord UInt16 .localSlot cursor
  | .shortArgumentSlot => readWord UInt8 .shortArgumentSlot cursor
  | .argumentSlot => readWord UInt16 .argumentSlot cursor
  | .phi => .error (.unsupportedOperand opcode)

/-!
# Reading payloads moves forward
-/

theorem follows_of_readWord {α : Type} [Word α] {make : α -> Payload}
    {cursor next : Cursor} {payload : Payload}
    (h : readWord α make cursor = .ok (payload, next)) : Cursor.Follows cursor next := by
  unfold readWord at h
  split at h
  · next hread =>
      cases h
      exact Cursor.follows_of_read hread
  · cases h

theorem follows_of_readSwitch {cursor next : Cursor} {payload : Payload}
    (h : readSwitch cursor = .ok (payload, next)) : Cursor.Follows cursor next := by
  unfold readSwitch at h
  split at h
  · cases h
  · next hcount =>
      split at h
      · cases h
      · split at h
        · cases h
        · next hentries =>
            cases h
            exact (Cursor.follows_of_read hcount).trans
              (Cursor.follows_of_readMany hentries)

theorem follows_of_read {opcode : Opcode} {cursor next : Cursor} {payload : Payload}
    (h : read opcode cursor = .ok (payload, next)) : Cursor.Follows cursor next := by
  unfold read at h
  split at h
  case h_1 =>
    cases h
    exact Cursor.Follows.refl cursor
  case h_2 =>
    split at h <;> exact follows_of_readWord h
  case h_9 => exact follows_of_readSwitch h
  case h_20 => cases h
  all_goals exact follows_of_readWord h

end Payload

end CilDisasm
