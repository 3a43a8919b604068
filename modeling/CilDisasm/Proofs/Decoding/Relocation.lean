import CilDisasm.Proofs.Bytes.Relocation
import CilDisasm.Proofs.Decoding.Denotation
import CilDisasm.Proofs.Decoding.Partition

/-!
# Relocated segments

Segments have the same opcodes and payloads wherever they lie, and only their offsets count
the bytes in front of them. The same holds for what keeps a place from being a segment, and
for what a segment's payload denotes. So what lies behind the code of statements is cut, and
its operands are found, as if it stood alone.
-/

namespace CilDisasm

/-!
# Reading segments
-/

def SegmentFault.moved (distance : Nat) : SegmentFault -> SegmentFault
  | outOfRange error => outOfRange (error.moved distance)
  | unknownOpcode value => unknownOpcode value
  | unsupportedOperand opcode => unsupportedOperand opcode

def Segment.moved (distance : Nat) (segment : Segment) : Segment :=
  { segment with
    offset := segment.offset + distance
    limit := segment.limit + distance }

section Reading

variable {front : List UInt8} {cursor : Cursor}

open Cursor (relocate)

theorem Payload.readWord_behind {α : Type} [Word α] (make : α -> Payload) :
    readWord α make (cursor.behind front) =
      relocate front (SegmentFault.moved front.length) id (readWord α make cursor) := by
  unfold readWord
  rw [Cursor.read_behind]
  cases Cursor.read α cursor with
  | error error => rfl
  | ok reply => rfl

theorem Payload.readSwitch_behind :
    readSwitch (cursor.behind front) =
      relocate front (SegmentFault.moved front.length) id (readSwitch cursor) := by
  unfold readSwitch
  rw [Cursor.read_behind]
  cases Cursor.read UInt32 cursor with
  | error error => rfl
  | ok reply =>
      rcases reply with ⟨count, entries⟩
      simp only [relocate, id]
      rw [Cursor.ensure_behind]
      cases Cursor.ensure (4 * count.toNat) entries with
      | error error => rfl
      | ok _ =>
          simp only [relocate]
          rw [Cursor.readMany_behind]
          cases Cursor.readMany Int32 count.toNat #[] entries with
          | error error => rfl
          | ok reply => rfl

theorem Payload.read_behind (opcode : Opcode) :
    read opcode (cursor.behind front) =
      relocate front (SegmentFault.moved front.length) id (read opcode cursor) := by
  unfold read
  cases opcode.format with
  | none | phi => rfl
  | shortInt =>
      by_cases hsigned : opcode.loadsSignedByte = true
      · simp only [hsigned, if_true]
        exact readWord_behind _
      · simp only [hsigned, if_false, Bool.false_eq_true]
        exact readWord_behind _
  | switch => exact readSwitch_behind
  | _ => exact readWord_behind _

theorem OpcodeCode.read_behind :
    read (cursor.behind front) =
      relocate front (OutOfRange.moved front.length) id (read cursor) := by
  unfold read
  rw [Cursor.read_behind]
  cases Cursor.read UInt8 cursor with
  | error error => rfl
  | ok reply =>
      rcases reply with ⟨first, next⟩
      simp only [relocate, id]
      split
      · rw [Cursor.read_behind]
        cases Cursor.read UInt8 next with
        | error error => rfl
        | ok reply => rfl
      · rfl

theorem Segment.read_behind (catalog : Catalog) (front : List UInt8) (cursor : Cursor) :
    read catalog (cursor.behind front) =
      relocate front (SegmentFault.moved front.length) (Segment.moved front.length)
        (read catalog cursor) := by
  unfold read
  rw [OpcodeCode.read_behind]
  cases OpcodeCode.read cursor with
  | error error => rfl
  | ok reply =>
      rcases reply with ⟨code, next⟩
      simp only [relocate, id]
      cases catalog.lookup code with
      | none => rfl
      | some opcode =>
          simp only
          rw [Payload.read_behind]
          cases Payload.read opcode next with
          | error fault => rfl
          | ok reply =>
              simp only [relocate, id, moved, Cursor.position_behind, Nat.add_comm]

end Reading

/-!
# Cutting behind statements
-/

open Statement (codeOf layOut)

theorem Statement.layOut_append (start : Nat) (first second : List Statement) :
    layOut start (first ++ second) =
      layOut start first ++ layOut (start + (codeOf first).length) second := by
  induction first generalizing start with
  | nil => rfl
  | cons statement rest ih =>
      rw [List.cons_append, layOut, layOut, ih, codeOf_cons, List.length_append,
        Nat.add_assoc, List.cons_append]

theorem Statement.layOut_add (start distance : Nat) (statements : List Statement) :
    layOut (start + distance) statements =
      (layOut start statements).map (Segment.moved distance) := by
  induction statements generalizing start with
  | nil => rfl
  | cons statement rest ih =>
      rw [layOut, layOut, List.map_cons, Nat.add_right_comm, ih]
      simp only [Segment.moved, placed, Nat.add_right_comm]

namespace Cut

variable {catalog : Catalog}

theorem continueFrom_behind_of_ends {cursor : Cursor} {done : Array Segment}
    {fault : Option (Nat × SegmentFault)} (h : Ends catalog cursor fault)
    (front : List UInt8) :
    continueFrom catalog (cursor.behind front) done =
      { segments := done
        fault := fault.map fun found =>
          (found.1 + front.length, found.2.moved front.length) } := by
  cases h with
  | complete hatEnd =>
      rw [continueFrom_of_atEnd (Cursor.atEnd_behind.trans hatEnd)]
      rfl
  | broken hmore hfault =>
      have hread := Segment.read_behind catalog front cursor
      rw [hfault] at hread
      rw [continueFrom_of_fault (Cursor.atEnd_behind.trans hmore) hread,
        Cursor.position_behind, Nat.add_comm]
      rfl

/-- What lies behind the code of statements is cut as if it stood alone. -/
theorem ofCode_append (hcatalog : catalog.Coherent) {statements : List Statement}
    (hlegal : forall statement, statement ∈ statements -> statement.Legal catalog)
    (code : List UInt8) :
    ofCode catalog (codeOf statements ++ code) =
      { segments :=
          (layOut 0 statements ++
            (ofCode catalog code).segments.toList.map
              (Segment.moved (codeOf statements).length)).toArray
        fault :=
          (ofCode catalog code).fault.map fun fault =>
            (fault.1 + (codeOf statements).length,
              fault.2.moved (codeOf statements).length) } := by
  have hposition : (Cursor.ofBytes code).position ≤ (Cursor.ofBytes code).buffer.size :=
    Nat.zero_le _
  rcases exists_statements_of_continueFrom hcatalog #[] hposition with
    ⟨others, last, hothers, hconsumes, hsegments, hends⟩
  have hall : forall statement, statement ∈ statements ++ others ->
      statement.Legal catalog := by
    intro statement hstatement
    rcases List.mem_append.mp hstatement with hfirst | hsecond
    · exact hlegal statement hfirst
    · exact hothers statement hsecond
  have hpassed : (Cursor.ofBytes (codeOf statements ++ code)).Consumes
      (codeOf (statements ++ others)) (last.behind (codeOf statements)) := by
    rw [Statement.codeOf_append]
    have hfront := consumes_ofBytes (codeOf statements) code
    rw [← Cursor.behind_ofBytes] at hfront
    exact hfront.append hconsumes.behind
  rw [ofCode, ofCode, continueFrom_of_consumes hcatalog hall hpassed,
    continueFrom_behind_of_ends hends, hsegments, Statement.layOut_append,
    Statement.layOut_add]
  simp [Cursor.ofBytes]

end Cut

/-!
# Operands behind other bytes
-/

/-- The place of a target, counted from a point that lies `distance` bytes further in front
and not yet matched with an instruction. -/
def Target.moved (distance : Nat) (target : Target) : Target :=
  .unresolved (target.offset + distance)

def DecodeError.moved (distance : Nat) : DecodeError -> DecodeError
  | noBody method => noBody method
  | outOfRange error => outOfRange (error.moved distance)
  | unknownOpcode value offset => unknownOpcode value (offset + distance)
  | unsupportedOperand opcode format offset =>
      unsupportedOperand opcode format (offset + distance)
  | symbol offset error => symbol (offset + distance) error
  | slotOutOfRange kind index count offset =>
      slotOutOfRange kind index count (offset + distance)
  | bodyTooLarge length => bodyTooLarge length

theorem DecodeError.moved_ofFault (distance offset : Nat) (fault : SegmentFault) :
    (ofFault offset fault).moved distance =
      ofFault (offset + distance) (fault.moved distance) := by
  cases fault <;> rfl

theorem Payload.Denotes.moved {payload : Payload} {oracle : Oracle} {body : MethodBody}
    {limit : Nat} {operand : Operand} (h : payload.Denotes oracle body limit operand)
    (distance : Nat) :
    payload.Denotes oracle body (limit + distance)
      (operand.mapTargets (Target.moved distance)) := by
  cases payload with
  | shortBranch way | branch way =>
      cases h
      simp only [Denotes, Operand.mapTargets, Target.moved, Target.offset, Int.natCast_add,
        Int.add_right_comm]
  | switch ways =>
      cases h
      simp only [Denotes, Operand.mapTargets, List.map_map, Function.comp_def, Target.moved,
        Target.offset, Int.natCast_add, Int.add_right_comm]
  | string token | member token | signature token =>
      rcases h with ⟨answer, hanswer, rfl⟩
      exact ⟨answer, hanswer, rfl⟩
  | shortLocalSlot index | localSlot index | shortArgumentSlot index | argumentSlot index =>
      rcases h with ⟨slot, hslot, rfl⟩
      exact ⟨slot, hslot, rfl⟩
  | _ =>
      cases h
      rfl

namespace Segment

variable {oracle : Oracle} {body : MethodBody} {segment : Segment}

theorem returns_symbolOperand_moved {query : Query} {make : query.Answer -> Operand}
    {error : DecodeError} (distance : Nat)
    (h : Dialogue.Returns oracle (segment.symbolOperand query make) (.error error)) :
    Dialogue.Returns oracle ((segment.moved distance).symbolOperand query make)
      (.error (error.moved distance)) := by
  rcases returns_symbolOperand_iff.mp h with ⟨reply, hreply, houtcome⟩
  apply returns_symbolOperand_iff.mpr
  refine ⟨reply, hreply, ?_⟩
  cases reply with
  | ok answer => cases houtcome
  | error failure =>
      cases houtcome
      rfl

theorem localOperand_moved {index : UInt16} {error : DecodeError} (distance : Nat)
    (h : segment.localOperand body index = .error error) :
    (segment.moved distance).localOperand body index = .error (error.moved distance) := by
  unfold localOperand at h ⊢
  cases hslot : body.locals[index.toNat]? with
  | some slot =>
      rw [hslot] at h
      cases h
  | none =>
      rw [hslot] at h
      cases h
      rfl

theorem argumentOperand_moved {index : UInt16} {error : DecodeError} (distance : Nat)
    (h : segment.argumentOperand body index = .error error) :
    (segment.moved distance).argumentOperand body index =
      .error (error.moved distance) := by
  unfold argumentOperand at h ⊢
  cases hargument : body.argument? index.toNat with
  | some argument =>
      rw [hargument] at h
      cases h
  | none =>
      rw [hargument] at h
      cases h
      rfl

theorem returns_operand_moved {error : DecodeError} (distance : Nat)
    (h : Dialogue.Returns oracle (segment.operand body) (.error error)) :
    Dialogue.Returns oracle ((segment.moved distance).operand body)
      (.error (error.moved distance)) := by
  rcases segment with ⟨offset, opcode, payload, limit⟩
  cases payload with
  | string token | member token | signature token =>
      exact returns_symbolOperand_moved distance h
  | shortLocalSlot index | localSlot index =>
      apply Program.returns_done_iff.mpr
      exact (localOperand_moved distance (Program.returns_done_iff.mp h).symm).symm
  | shortArgumentSlot index | argumentSlot index =>
      apply Program.returns_done_iff.mpr
      exact (argumentOperand_moved distance (Program.returns_done_iff.mp h).symm).symm
  | _ => cases Program.returns_done_iff.mp h

end Segment

namespace Listing

variable {oracle : Oracle} {body : MethodBody}

theorem extend_append (body : MethodBody) (first second : List Segment) (listing : Listing) :
    extend body (first ++ second) listing =
      (extend body first listing).bind fun
        | .error error => .done (.error error)
        | .ok extended => extend body second extended := by
  induction first generalizing listing with
  | nil => rfl
  | cons segment rest ih =>
      rw [List.cons_append, extend, extend, Program.bind_assoc]
      congr 1
      funext outcome
      cases outcome with
      | error error => rfl
      | ok operand =>
          simp only [ih, Program.bind_assoc]

/-- Appending instructions for segments fails at the same segment wherever they lie. -/
theorem returns_extend_moved {segments : List Segment} {listing : Listing}
    {error : DecodeError} (distance : Nat) (other : Listing)
    (h : Dialogue.Returns oracle (extend body segments listing) (.error error)) :
    Dialogue.Returns oracle (extend body (segments.map (Segment.moved distance)) other)
      (.error (error.moved distance)) := by
  induction segments generalizing listing other with
  | nil => cases Program.returns_done_iff.mp h
  | cons segment rest ih =>
      rcases Program.returns_bind_iff.mp h with ⟨outcome, hoperand, hrest⟩
      cases outcome with
      | error found =>
          cases Program.returns_done_iff.mp hrest
          refine Program.returns_bind_iff.mpr ⟨.error (error.moved distance), ?_, ?_⟩
          · exact Segment.returns_operand_moved distance hoperand
          · exact Program.Returns.done _
      | ok operand =>
          have hdenotes := Segment.returns_operand_ok_iff.mp hoperand
          refine Program.returns_bind_iff.mpr
            ⟨.ok (operand.mapTargets (Target.moved distance)), ?_, ?_⟩
          · exact Segment.returns_operand_ok_iff.mpr (hdenotes.moved distance)
          · apply Dialogue.returns_report_bind_iff.mpr
            exact ih _ (Dialogue.returns_report_bind_iff.mp hrest)

end Listing

end CilDisasm
