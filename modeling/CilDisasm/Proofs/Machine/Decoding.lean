import CilDisasm.Proofs.Decoding.Partition
import CilDisasm.Proofs.Machine.Cursor

/-!
# Decoding with machine numbers

Here a method body is decoded in one pass, with the numbers of a machine: positions of 64
bits, offsets of 32 bits and signed destinations of 64 bits. `none` stands for an operation
that is not exact, be it a sum, a product, a change of type or a slice of the buffer. The
pass goes on as long as bytes are left, and every instruction takes at least one.

On method bodies that offsets can address all operations are exact. Then this is decoding.
-/

namespace CilDisasm

open Machine (add? cast? saturatingMul?)
open MachineNumber (number)

/-- What is read behind a code. Destinations are computed on the way. -/
inductive MachinePayload where
  | plain (payload : Payload)
  | branch (place : Int64)
  | switch (places : Array Int64)

structure MachineSegment where
  offset : UInt32
  opcode : Opcode
  payload : MachinePayload
  limit : UInt64

namespace MachinePayload

abbrev Attempt : Type :=
  Option (Except SegmentFault (MachinePayload × MachineCursor))

def readWord (α : Type) [Word α] (make : α -> Payload) (cursor : MachineCursor) : Attempt :=
  (cursor.read α).map fun
    | .error error => .error (.outOfRange error)
    | .ok (value, next) => .ok (.plain (make value), next)

/-- The destination counts from the end of the distance. -/
def readBranch (α : Type) [Word α] (distance : α -> Int64) (cursor : MachineCursor) :
    Attempt :=
  (cursor.read α).bind fun
    | .error error => some (.error (.outOfRange error))
    | .ok (value, next) =>
        (cast? UInt64.toInt64 next.position).bind fun stop =>
          (add? stop (distance value)).map fun place => .ok (.branch place, next)

/-- The length of the table is computed and checked before anything that depends on it. -/
def readSwitch (cursor : MachineCursor) : Attempt :=
  (cursor.read UInt32).bind fun
    | .error error => some (.error (.outOfRange error))
    | .ok (count, entries) =>
        (saturatingMul? count.toUInt64 4).bind fun length =>
          match entries.ensure length with
          | .error error => some (.error (.outOfRange error))
          | .ok _ =>
              (add? entries.position length).bind fun stop =>
                (cast? UInt64.toInt64 stop).bind fun base =>
                  (MachineCursor.readPlaces base count.toNat #[] entries).map fun
                    | .error error => .error (.outOfRange error)
                    | .ok (places, next) => .ok (.switch places, next)

def read (opcode : Opcode) (cursor : MachineCursor) : Attempt :=
  match opcode.format with
  | .none => some (.ok (.plain .none, cursor))
  | .shortInt =>
      if opcode.loadsSignedByte then readWord Int8 .int8 cursor
      else readWord UInt8 .uint8 cursor
  | .int => readWord Int32 .int32 cursor
  | .long => readWord Int64 .int64 cursor
  | .shortFloat => readWord Binary32 .float32 cursor
  | .float => readWord Binary64 .float64 cursor
  | .shortBranch => readBranch Int8 Int8.toInt64 cursor
  | .branch => readBranch Int32 Int32.toInt64 cursor
  | .switch => readSwitch cursor
  | .string => readWord UInt32 (fun value => .string ⟨value⟩) cursor
  | .type | .method | .field | .member =>
      readWord UInt32 (fun value => .member ⟨value⟩) cursor
  | .signature => readWord UInt32 (fun value => .signature ⟨value⟩) cursor
  | .shortLocalSlot => readWord UInt8 .shortLocalSlot cursor
  | .localSlot => readWord UInt16 .localSlot cursor
  | .shortArgumentSlot => readWord UInt8 .shortArgumentSlot cursor
  | .argumentSlot => readWord UInt16 .argumentSlot cursor
  | .phi => some (.error (.unsupportedOperand opcode))

end MachinePayload

namespace MachineSegment

def readCode : MachineReading OpcodeCode :=
  fun cursor =>
    (cursor.read UInt8).bind fun
      | .error error => some (.error error)
      | .ok (first, next) =>
          if first = extensionByte then
            (next.read UInt8).map fun
              | .error error => .error error
              | .ok (second, last) => .ok (.twoByte second, last)
          else
            some (.ok (.oneByte first, next))

def read (catalog : Catalog) (cursor : MachineCursor) :
    Option (Except DecodeError (MachineSegment × MachineCursor)) :=
  (cast? UInt64.toUInt32 cursor.position).bind fun offset =>
    (readCode cursor).bind fun
      | .error error => some (.error (.outOfRange error))
      | .ok (code, next) =>
          match catalog.lookup code with
          | none => some (.error (.unknownOpcode code.value offset.toNat))
          | some opcode =>
              (MachinePayload.read opcode next).map fun
                | .error fault => .error (.ofFault offset.toNat fault)
                | .ok (payload, last) =>
                    .ok
                      ({ offset := offset
                         opcode := opcode
                         payload := payload
                         limit := last.position },
                        last)

def operand (segment : MachineSegment) (body : MethodBody) :
    Dialogue (Except DecodeError Operand) :=
  match segment.payload with
  | .branch place => .done (.ok (.branch (.unresolved place.toInt)))
  | .switch places =>
      .done (.ok (.switch (places.toList.map fun place => .unresolved place.toInt)))
  | .plain payload =>
      Segment.operand
        { offset := segment.offset.toNat
          opcode := segment.opcode
          payload := payload
          limit := segment.limit.toNat }
        body

end MachineSegment

/-!
# Every instruction takes bytes
-/

namespace MachinePayload

open MachineCursor (Follows)

variable {cursor next : MachineCursor} {payload : MachinePayload}

theorem follows_of_readWord {α : Type} [Word α] {make : α -> Payload}
    (h : readWord α make cursor = some (.ok (payload, next))) : Follows cursor next := by
  rcases Option.map_eq_some_iff.mp h with ⟨reply, hread, hreply⟩
  rcases reply with error | ⟨value, last⟩
  · cases hreply
  · cases hreply
    exact MachineCursor.follows_of_read hread

theorem follows_of_readBranch {α : Type} [Word α] {distance : α -> Int64}
    (h : readBranch α distance cursor = some (.ok (payload, next))) :
    Follows cursor next := by
  rcases Option.bind_eq_some_iff.mp h with ⟨reply, hread, hreply⟩
  rcases reply with error | ⟨value, last⟩
  · cases hreply
  · rcases Option.bind_eq_some_iff.mp hreply with ⟨stop, -, hplace⟩
    rcases Option.map_eq_some_iff.mp hplace with ⟨place, -, hlast⟩
    cases hlast
    exact MachineCursor.follows_of_read hread

theorem follows_of_readSwitch (h : readSwitch cursor = some (.ok (payload, next))) :
    Follows cursor next := by
  rcases Option.bind_eq_some_iff.mp h with ⟨reply, hcount, hreply⟩
  rcases reply with error | ⟨count, entries⟩
  · cases hreply
  · rcases Option.bind_eq_some_iff.mp hreply with ⟨length, -, htable⟩
    split at htable
    · cases htable
    · rcases Option.bind_eq_some_iff.mp htable with ⟨stop, -, hbase⟩
      rcases Option.bind_eq_some_iff.mp hbase with ⟨base, -, hplaces⟩
      rcases Option.map_eq_some_iff.mp hplaces with ⟨reply, hread, hlast⟩
      rcases reply with error | ⟨places, last⟩
      · cases hlast
      · cases hlast
        exact (MachineCursor.follows_of_read hcount).trans
          (MachineCursor.follows_of_readPlaces hread)

theorem follows_of_read {opcode : Opcode}
    (h : read opcode cursor = some (.ok (payload, next))) : Follows cursor next := by
  unfold read at h
  split at h
  case h_1 =>
    cases h
    exact Follows.refl _
  case h_2 =>
    split at h
    · exact follows_of_readWord h
    · exact follows_of_readWord h
  case h_7 | h_8 => exact follows_of_readBranch h
  case h_9 => exact follows_of_readSwitch h
  case h_20 => cases h
  all_goals exact follows_of_readWord h

end MachinePayload

namespace MachineSegment

variable {cursor next : MachineCursor}

theorem position_lt_of_readCode {code : OpcodeCode}
    (h : readCode cursor = some (.ok (code, next))) :
    next.buffer = cursor.buffer ∧ cursor.position.toNat < next.position.toNat := by
  rcases Option.bind_eq_some_iff.mp h with ⟨reply, hfirst, hreply⟩
  rcases reply with error | ⟨first, middle⟩
  · cases hreply
  · rcases MachineCursor.position_of_read hfirst with ⟨hbuffer, hposition⟩
    have hlt : cursor.position.toNat < middle.position.toNat := by
      rw [hposition]
      exact Nat.lt_add_of_pos_right (by decide)
    simp only at hreply
    split at hreply
    · rcases Option.map_eq_some_iff.mp hreply with ⟨reply, hsecond, hlast⟩
      rcases reply with error | ⟨second, last⟩
      · cases hlast
      · cases hlast
        have hfollows := MachineCursor.follows_of_read hsecond
        exact ⟨hfollows.buffer_eq.trans hbuffer, Nat.lt_of_lt_of_le hlt hfollows.position_le⟩
    · cases hreply
      exact ⟨hbuffer, hlt⟩

theorem remaining_lt_of_read {catalog : Catalog} {segment : MachineSegment}
    (hmore : cursor.atEnd = false)
    (h : read catalog cursor = some (.ok (segment, next))) :
    next.remaining < cursor.remaining := by
  rcases Option.bind_eq_some_iff.mp h with ⟨offset, -, hcode⟩
  rcases Option.bind_eq_some_iff.mp hcode with ⟨reply, hread, hreply⟩
  rcases reply with error | ⟨code, middle⟩
  · cases hreply
  · rcases position_lt_of_readCode hread with ⟨hbuffer, hlt⟩
    simp only at hreply
    split at hreply
    · cases hreply
    · rcases Option.map_eq_some_iff.mp hreply with ⟨reply, hpayload, hlast⟩
      rcases reply with fault | ⟨payload, last⟩
      · cases hlast
      · cases hlast
        have hfollows := MachinePayload.follows_of_read hpayload
        have hsize := congrArg Array.size (hfollows.buffer_eq.trans hbuffer)
        have hposition := Nat.lt_of_lt_of_le hlt hfollows.position_le
        have hinside : cursor.position < cursor.length :=
          UInt64.not_le.mp (of_decide_eq_false hmore)
        have hlength : cursor.position.toNat < cursor.buffer.size :=
          Nat.lt_of_lt_of_le (UInt64.lt_iff_toNat_lt.mp hinside)
            (UInt64.toNat_ofNat' ▸ Nat.mod_le _ _)
        rw [MachineCursor.remaining, MachineCursor.remaining, hsize]
        exact Nat.sub_lt_sub_left hlength hposition

end MachineSegment

/-!
# One pass
-/

namespace MethodBody

def decodeFrom (catalog : Catalog) (body : MethodBody) (cursor : MachineCursor)
    (listing : Listing) : Dialogue (Option (Except DecodeError Listing)) :=
  if hmore : cursor.atEnd = false then
    match h : MachineSegment.read catalog cursor with
    | none => .done none
    | some (.error error) => .done (some (.error error))
    | some (.ok (segment, next)) =>
        have := MachineSegment.remaining_lt_of_read hmore h
        (segment.operand body).bind fun
          | .error error => .done (some (.error error))
          | .ok operand =>
              let offset := segment.offset.toNat
              let instruction := listing.appended offset segment.opcode operand
              (Dialogue.report (.decoded instruction)).bind fun _ =>
                decodeFrom catalog body next (listing.push offset segment.opcode operand)
  else
    listing.settle.bind fun settled => .done (some (.ok settled))
termination_by cursor.remaining

/-- Decoding with machine numbers. Room is made for one instruction in two bytes. -/
def machineDecode (catalog : Catalog) (body : MethodBody) :
    Dialogue (Option (Except DecodeError Listing)) :=
  let length := UInt64.ofNat body.code.length
  match cast? UInt64.toUInt32 length with
  | none => .done (some (.error (.bodyTooLarge length.toNat)))
  | some _ =>
      match add? length 1 with
      | none => .done none
      | some _ =>
          decodeFrom catalog body { buffer := body.code.toArray, position := 0 } .empty

end MethodBody

end CilDisasm
