import CilDisasm.Proofs.Machine.Decoding

/-!
# Where machine numbers suffice

On a buffer that offsets can address, every operation of the machine is exact. No position
lies behind the end of the buffer, so sums of positions and lengths are small. The product
that is the length of a jump table has 34 bits, and only a table that fits into the buffer is
computed with. A distance has 32 bits, so a destination is never far from the buffer.
-/

namespace CilDisasm

open Cursor (Addressable placeOf lt_size_of_lt)
open Machine (add? cast? saturatingMul?)

def Payload.machine (limit : Nat) : Payload -> MachinePayload
  | .shortBranch distance => .branch (Int64.ofInt (limit + distance.toInt))
  | .branch distance => .branch (placeOf limit distance)
  | .switch distances => .switch (distances.toArray.map (placeOf limit))
  | payload => .plain payload

def Segment.machine (segment : Segment) : MachineSegment :=
  { offset := UInt32.ofNat segment.offset
    opcode := segment.opcode
    payload := segment.payload.machine segment.limit
    limit := UInt64.ofNat segment.limit }

/-!
# Payloads
-/

namespace MachinePayload

/-- What a reading of payloads comes to with machine numbers. -/
def attempt (outcome : Except SegmentFault (Payload × Cursor)) : Attempt :=
  some (outcome.map fun reply => (reply.1.machine reply.2.position, reply.2.machine))

variable {cursor : Cursor}

theorem readWord_machine {α : Type} [Word α] {make : α -> Payload} (h : cursor.Addressable)
    (hwidth : Word.width α < 0x8000000000000000)
    (hmake : forall value limit, (make value).machine limit = .plain (make value)) :
    readWord α make cursor.machine = attempt (Payload.readWord α make cursor) := by
  rw [readWord, Payload.readWord, Cursor.read_machine h hwidth]
  cases Cursor.read α cursor with
  | error error => rfl
  | ok reply =>
      simp only [attempt, Except.map, hmake]
      rfl

theorem cast?_position {next : Cursor} (h : next.Addressable) :
    cast? UInt64.toInt64 next.machine.position = some (Int64.ofInt next.position) :=
  Machine.cast?_toInt64_ofNat (Nat.lt_trans h.position_lt (by decide))

theorem readBranch_machine {α : Type} [Word α] {make : α -> Payload}
    {distance : α -> Int64} {number : α -> Int} (h : cursor.Addressable)
    (hwidth : Word.width α < 0x8000000000000000)
    (hdistance : forall value, distance value = Int64.ofInt (number value))
    (hnumber : forall value, Machine.IsDistance (number value))
    (hmake : forall value limit,
      (make value).machine limit = .branch (Int64.ofInt (limit + number value))) :
    readBranch α distance cursor.machine = attempt (Payload.readWord α make cursor) := by
  rw [readBranch, Payload.readWord, Cursor.read_machine h hwidth]
  cases hread : Cursor.read α cursor with
  | error error => rfl
  | ok reply =>
      rcases reply with ⟨value, next⟩
      have hnext := h.of_follows (Cursor.follows_of_read hread)
      simp only [attempt, Except.map, hmake, Option.bind_some, cast?_position hnext,
        hdistance, (hnumber value).add?_place hnext.position_lt, Option.map_some]

theorem saturatingMul?_count (count : UInt32) :
    saturatingMul? count.toUInt64 4 = some (UInt64.ofNat (4 * count.toNat)) := by
  have hcount := count.toNat_lt
  have hproduct := Machine.saturatingMul?_ofNat (m := count.toNat) (n := 4)
    (Nat.lt_trans hcount (by decide)) (by decide)
    (Nat.lt_trans (Nat.mul_lt_mul_of_pos_right hcount (by decide)) (by decide))
  rw [Nat.mul_comm] at hproduct
  rw [← hproduct, ← UInt32.toNat_toUInt64, UInt64.ofNat_toNat]
  rfl

theorem position_of_readMany {count : Nat} {distances : Array Int32} {last : Cursor}
    (hposition : cursor.position ≤ cursor.buffer.size)
    (h : Cursor.readMany Int32 count #[] cursor = .ok (distances, last)) :
    last.position = cursor.position + 4 * count := by
  rcases (Cursor.readMany_eq_ok_iff_consumes hposition).mp h with
    ⟨entries, hlength, -, hconsumes⟩
  rw [hconsumes.position_eq, Word.length_flatMap_toBytes, hlength]
  rfl

theorem readSwitch_machine (h : cursor.Addressable) :
    readSwitch cursor.machine = attempt (Payload.readSwitch cursor) := by
  rw [readSwitch, Payload.readSwitch, Cursor.read_machine h (by decide)]
  cases hread : Cursor.read UInt32 cursor with
  | error error => rfl
  | ok reply =>
      rcases reply with ⟨count, entries⟩
      have hentries := h.of_follows (Cursor.follows_of_read hread)
      have hlength : 4 * count.toNat < 0x8000000000000000 :=
        Nat.lt_trans (Nat.mul_lt_mul_of_pos_left count.toNat_lt (by decide)) (by decide)
      simp only [Except.map, Option.bind_some, saturatingMul?_count,
        Cursor.ensure_machine hentries hlength]
      cases hensure : Cursor.ensure (4 * count.toNat) entries with
      | error error => rfl
      | ok unchanged =>
          have hroom := Cursor.position_add_le_of_ensure hensure
          have hstop := Nat.lt_of_le_of_lt hroom hentries.size_lt
          have hbase : cast? UInt64.toInt64
              (UInt64.ofNat (entries.position + 4 * count.toNat)) =
                some (Int64.ofInt (entries.position + 4 * count.toNat : Nat)) :=
            Machine.cast?_toInt64_ofNat (Nat.lt_trans hstop (by decide))
          have hplaces := Cursor.readPlaces_machine hentries hstop count.toNat #[]
          simp only [Array.map_empty] at hplaces
          simp only [Except.map, Cursor.add?_position hentries hlength, Option.bind_some,
            hbase, hplaces, Option.map_some]
          cases hmany : Cursor.readMany Int32 count.toNat #[] entries with
          | error error => rfl
          | ok reply =>
              rcases reply with ⟨distances, last⟩
              have hlast := position_of_readMany hentries.position_le hmany
              simp only [attempt, Except.map, Payload.machine, hlast]

theorem read_machine {opcode : Opcode} (h : cursor.Addressable) :
    read opcode cursor.machine = attempt (Payload.read opcode cursor) := by
  unfold read Payload.read
  cases opcode.format with
  | none | phi => rfl
  | shortInt =>
      simp only
      split
      · exact readWord_machine h (by decide) (fun _ _ => rfl)
      · exact readWord_machine h (by decide) (fun _ _ => rfl)
  | shortBranch =>
      exact readBranch_machine h (by decide) (fun _ => rfl) Machine.isDistance_int8
        (fun _ _ => rfl)
  | branch =>
      exact readBranch_machine h (by decide) (fun _ => rfl) Machine.isDistance_int32
        (fun _ _ => rfl)
  | switch => exact readSwitch_machine h
  | _ => exact readWord_machine h (by decide) (fun _ _ => rfl)

end MachinePayload

/-!
# Segments
-/

namespace MachineSegment

variable {cursor : Cursor}

theorem readCode_machine (h : cursor.Addressable) :
    readCode cursor.machine =
      some ((OpcodeCode.read cursor).map (fun reply => (reply.1, reply.2.machine))) := by
  rw [readCode, OpcodeCode.read, Cursor.read_machine h (by decide)]
  cases hread : Cursor.read UInt8 cursor with
  | error error => rfl
  | ok reply =>
      rcases reply with ⟨first, next⟩
      have hnext := h.of_follows (Cursor.follows_of_read hread)
      simp only [Except.map, Option.bind_some]
      split
      · rw [Cursor.read_machine hnext (by decide)]
        cases Cursor.read UInt8 next with
        | error error => rfl
        | ok reply => rfl
      · rfl

def attempt (offset : Nat) (outcome : Except SegmentFault (Segment × Cursor)) :
    Option (Except DecodeError (MachineSegment × MachineCursor)) :=
  match outcome with
  | .error fault => some (.error (.ofFault offset fault))
  | .ok (segment, next) => some (.ok (segment.machine, next.machine))

theorem read_machine {catalog : Catalog} (h : cursor.Addressable) :
    read catalog cursor.machine = attempt cursor.position (Segment.read catalog cursor) := by
  have hoffset : cast? UInt64.toUInt32 cursor.machine.position =
      some (UInt32.ofNat cursor.position) :=
    Machine.cast?_toUInt32_ofNat h.position_lt
  have hnumber : (UInt32.ofNat cursor.position).toNat = cursor.position :=
    UInt32.toNat_ofNat_of_lt' h.position_lt
  rw [read, Segment.read, hoffset, readCode_machine h]
  simp only [Option.bind_some, hnumber]
  cases hcode : OpcodeCode.read cursor with
  | error error => rfl
  | ok reply =>
      rcases reply with ⟨code, next⟩
      have hnext := h.of_follows (OpcodeCode.follows_of_read hcode).1
      simp only [Except.map]
      cases catalog.lookup code with
      | none => rfl
      | some opcode =>
          simp only [MachinePayload.read_machine hnext]
          cases Payload.read opcode next with
          | error fault => rfl
          | ok reply => rfl

end MachineSegment

theorem Segment.operand_machine {segment : Segment} (body : MethodBody)
    (hoffset : segment.offset < codeLengthLimit) (hlimit : segment.limit < codeLengthLimit) :
    segment.machine.operand body = segment.operand body := by
  rcases segment with ⟨offset, opcode, payload, limit⟩
  have hplace : forall distance : Int, Machine.IsDistance distance ->
      (Int64.ofInt (limit + distance)).toInt = limit + distance :=
    fun _ hdistance => hdistance.number_place hlimit
  cases payload with
  | shortBranch distance =>
      have hsame := hplace distance.toInt (Machine.isDistance_int8 distance)
      simp only [MachineSegment.operand, machine, Payload.machine, operand, destination, hsame]
  | branch distance =>
      have hsame := hplace distance.toInt (Machine.isDistance_int32 distance)
      simp only [MachineSegment.operand, machine, Payload.machine, operand, destination,
        placeOf, hsame]
  | switch distances =>
      have hsame : forall distance : Int32,
          (placeOf limit distance).toInt = limit + distance.toInt :=
        fun distance => hplace distance.toInt (Machine.isDistance_int32 distance)
      simp only [MachineSegment.operand, machine, Payload.machine, operand, destination,
        Array.toList_map, List.map_map, Function.comp_def, hsame]
  | _ =>
      simp only [MachineSegment.operand, machine, Payload.machine,
        UInt32.toNat_ofNat_of_lt' hoffset, UInt64.toNat_ofNat_of_lt' (lt_size_of_lt hlimit)]

/-!
# One pass
-/

namespace MethodBody

open Statement (codeOf layOut)

variable {body : MethodBody} {catalog : Catalog} {cursor next : Cursor}

theorem decodeFrom_of_read (h : cursor.Addressable) (hmore : cursor.atEnd = false)
    {segment : Segment} (hread : Segment.read catalog cursor = .ok (segment, next))
    (hoffset : segment.offset < codeLengthLimit) (hlimit : segment.limit < codeLengthLimit)
    (listing : Listing) :
    decodeFrom catalog body cursor.machine listing =
      (segment.operand body).bind fun
        | .error error => .done (some (.error error))
        | .ok operand =>
            (Dialogue.report
              (.decoded (listing.appended segment.offset segment.opcode operand))).bind fun _ =>
                decodeFrom catalog body next.machine
                  (listing.push segment.offset segment.opcode operand) := by
  have hmachine : MachineSegment.read catalog cursor.machine =
      some (.ok (segment.machine, next.machine)) := by
    rw [MachineSegment.read_machine h, hread]
    rfl
  have hnumber : segment.machine.offset.toNat = segment.offset :=
    UInt32.toNat_ofNat_of_lt' hoffset
  rw [decodeFrom, dif_pos ((Cursor.atEnd_machine h).trans hmore)]
  split
  · next hnone =>
      rw [hmachine] at hnone
      cases hnone
  · next error herror =>
      rw [hmachine] at herror
      cases herror
  · next found last hfound =>
      rw [hmachine] at hfound
      cases hfound
      simp only [Segment.operand_machine body hoffset hlimit, hnumber]
      rfl

theorem decodeFrom_of_fault (h : cursor.Addressable) (hmore : cursor.atEnd = false)
    {fault : SegmentFault} (hread : Segment.read catalog cursor = .error fault)
    (listing : Listing) :
    decodeFrom catalog body cursor.machine listing =
      .done (some (.error (.ofFault cursor.position fault))) := by
  have hmachine : MachineSegment.read catalog cursor.machine =
      some (.error (.ofFault cursor.position fault)) := by
    rw [MachineSegment.read_machine h, hread]
    rfl
  rw [decodeFrom, dif_pos ((Cursor.atEnd_machine h).trans hmore)]
  split
  · next hnone =>
      rw [hmachine] at hnone
      cases hnone
  · next error herror =>
      rw [hmachine] at herror
      cases herror
      rfl
  · next found last hfound =>
      rw [hmachine] at hfound
      cases hfound

theorem decodeFrom_of_atEnd (h : cursor.Addressable) (hend : cursor.atEnd = true)
    (listing : Listing) :
    decodeFrom catalog body cursor.machine listing =
      listing.settle.bind fun settled => .done (some (.ok settled)) := by
  have hmachine := (Cursor.atEnd_machine h).trans hend
  rw [decodeFrom, dif_neg (by simp [hmachine])]

/-- The pass goes over statements as listings are extended by their segments. -/
theorem decodeFrom_of_consumes (hcatalog : catalog.Coherent) (h : cursor.Addressable)
    {statements : List Statement}
    (hlegal : forall statement, statement ∈ statements -> statement.Legal catalog)
    (hconsumes : cursor.Consumes (codeOf statements) next) (listing : Listing) :
    decodeFrom catalog body cursor.machine listing =
      (listing.extend body (layOut cursor.position statements)).bind fun
        | .error error => .done (some (.error error))
        | .ok extended => decodeFrom catalog body next.machine extended := by
  induction statements generalizing cursor listing with
  | nil =>
      rw [hconsumes.eq_of_nil]
      rfl
  | cons statement rest ih =>
      rcases List.forall_mem_cons.mp hlegal with ⟨hfirstLegal, hrestLegal⟩
      rw [Statement.codeOf_cons] at hconsumes
      rcases Cursor.consumes_append_iff.mp hconsumes with ⟨middle, hfirst, hrest⟩
      have hmore := Cut.atEnd_eq_false_of_consumes statement.length_bytes_pos hfirst
      have hread : Segment.read catalog cursor =
          .ok (statement.placed cursor.position, middle) :=
        (Segment.read_eq_ok_iff hcatalog).mpr ⟨statement, hfirstLegal, hfirst, rfl⟩
      have hmiddle := h.of_follows (Segment.follows_of_read hread).1
      have hlimit : (statement.placed cursor.position).limit < codeLengthLimit := by
        show cursor.position + statement.bytes.length < codeLengthLimit
        rw [← hfirst.position_eq]
        exact hmiddle.position_lt
      rw [decodeFrom_of_read h hmore hread h.position_lt hlimit, layOut, Listing.extend,
        Program.bind_assoc]
      congr 1
      funext outcome
      cases outcome with
      | error error => rfl
      | ok operand =>
          simp only [Program.bind_assoc]
          congr 1
          funext _
          rw [← hfirst.position_eq]
          exact ih hmiddle hrestLegal hrest _

/-- On code that offsets can address, decoding with machine numbers is decoding, and no
operation is inexact. -/
theorem machineDecode_eq (hcatalog : catalog.Coherent) (body : MethodBody)
    (hlength : body.code.length < codeLengthLimit) :
    body.machineDecode catalog =
      (body.decode catalog).bind (fun outcome => .done (some outcome)) := by
  have haddressable : (Cursor.ofBytes body.code).Addressable :=
    ⟨Nat.zero_le _, hlength⟩
  rcases Cut.exists_statements_of_ofCode hcatalog body.code with
    ⟨statements, next, hlegal, hconsumes, hsegments, hends⟩
  have hnext : next.Addressable :=
    ⟨hconsumes.position_le, hconsumes.buffer_eq ▸ hlength⟩
  have hroom : add? (UInt64.ofNat body.code.length) 1 =
      some (UInt64.ofNat (body.code.length + 1)) :=
    Machine.add?_ofNat_uint64 (Nat.lt_of_le_of_lt hlength (by decide))
  have hpass : decodeFrom catalog body (Cursor.ofBytes body.code).machine .empty = _ :=
    decodeFrom_of_consumes hcatalog haddressable hlegal hconsumes Listing.empty
  rw [machineDecode, decode, if_neg (Nat.not_le.mpr hlength)]
  simp only [Machine.cast?_toUInt32_ofNat hlength, hroom, hsegments, Program.bind_assoc]
  refine Eq.trans hpass ?_
  congr 1
  funext outcome
  cases outcome with
  | error error => rfl
  | ok listing =>
      cases hfault : (Cut.ofCode catalog body.code).fault with
      | none =>
          have hcomplete : Cut.Ends catalog next none := hfault ▸ hends
          cases hcomplete with
          | complete hend =>
              simp only [decodeFrom_of_atEnd hnext hend, Program.bind_assoc]
              rfl
      | some place =>
          have hbroken : Cut.Ends catalog next (some place) := hfault ▸ hends
          cases hbroken with
          | broken hmore hread => exact decodeFrom_of_fault hnext hmore hread listing

end MethodBody

end CilDisasm
