import CilDisasm.Proofs.Bytes.Overrun
import CilDisasm.Proofs.Decoding.Denotation

/-!
# What keeps bytes from being an instruction

The bytes ahead of a cursor are no segment when they end too early, when their code stands
for no opcode, or when the format of the opcode has no layout. A segment that was read has
no operand when its token fails to resolve or its slot does not exist. Each of these errors
carries what it is about: the read that failed, the code, the opcode, the reply, the slot.
-/

namespace CilDisasm

namespace Payload

variable {cursor : Cursor} {fault : SegmentFault}

theorem overruns_of_readWord {α : Type} [Word α] {make : α -> Payload}
    (hposition : cursor.position ≤ cursor.buffer.size)
    (h : readWord α make cursor = .error fault) :
    exists error : OutOfRange, fault = .outOfRange error ∧ cursor.Overruns error := by
  unfold readWord at h
  split at h
  · cases h
  · next error hread =>
      cases h
      exact ⟨error, rfl, Cursor.overruns_of_read hposition hread⟩

/-- Either the count of a jump table is cut short or the table is. Its entries are read only
where there is room for all of them. -/
theorem overruns_of_readSwitch (hposition : cursor.position ≤ cursor.buffer.size)
    (h : readSwitch cursor = .error fault) :
    exists error : OutOfRange, fault = .outOfRange error ∧ cursor.Overruns error := by
  unfold readSwitch at h
  split at h
  · next error hcount =>
      cases h
      exact ⟨error, rfl, Cursor.overruns_of_read hposition hcount⟩
  · next count entries hcount =>
      have hconsumes := Cursor.read_eq_ok_iff_consumes.mp hcount
      split at h
      · next error hensure =>
          cases h
          have htable := Cursor.overruns_of_ensure hconsumes.position_le hensure
          exact ⟨error, rfl, htable.of_consumes hconsumes⟩
      · next hensure =>
          have hroom := Cursor.position_add_le_of_ensure hensure
          rcases Cursor.exists_readMany_eq_ok (α := Int32) #[] hroom with
            ⟨distances, last, hentries⟩
          rw [hentries] at h
          cases h

theorem overruns_or_phi_of_read {opcode : Opcode}
    (hposition : cursor.position ≤ cursor.buffer.size)
    (h : read opcode cursor = .error fault) :
    (exists error : OutOfRange, fault = .outOfRange error ∧ cursor.Overruns error) ∨
      (opcode.format = .phi ∧ fault = .unsupportedOperand opcode) := by
  unfold read at h
  cases hformat : opcode.format with
  | none =>
      simp only [hformat] at h
      cases h
  | shortInt =>
      simp only [hformat] at h
      split at h
      · exact Or.inl (overruns_of_readWord hposition h)
      · exact Or.inl (overruns_of_readWord hposition h)
  | switch =>
      simp only [hformat] at h
      exact Or.inl (overruns_of_readSwitch hposition h)
  | phi =>
      simp only [hformat] at h
      cases h
      exact Or.inr ⟨rfl, rfl⟩
  | _ =>
      simp only [hformat] at h
      exact Or.inl (overruns_of_readWord hposition h)

end Payload

theorem OpcodeCode.overruns_of_read {cursor : Cursor} {error : OutOfRange}
    (hmore : cursor.atEnd = false) (h : read cursor = .error error) :
    cursor.position < error.position ∧ cursor.Overruns error := by
  have hlt : cursor.position < cursor.buffer.size := by
    simpa [Cursor.atEnd] using hmore
  have hfits : cursor.position + Word.width UInt8 ≤ cursor.buffer.size := hlt
  unfold read at h
  split at h
  · next hfirst =>
      rw [Cursor.read_eq_if, if_pos hfits] at hfirst
      cases hfirst
  · next first next hfirst =>
      have hconsumes := Cursor.read_eq_ok_iff_consumes.mp hfirst
      have hwidth : 0 < (Word.toBytes first).length := by
        rw [Word.length_toBytes]
        exact Nat.one_pos
      split at h
      · split at h
        · next hsecond =>
            cases h
            have hoverruns := Cursor.overruns_of_read hconsumes.position_le hsecond
            exact ⟨Cursor.position_lt_of_consumes hwidth hconsumes hoverruns,
              hoverruns.of_consumes hconsumes⟩
        · cases h
      · cases h

namespace Segment

inductive Faults (catalog : Catalog) (cursor : Cursor) : SegmentFault -> Prop where
  | outOfRange {error : OutOfRange} :
      cursor.position < error.position ->
      cursor.Overruns error ->
      Faults catalog cursor (.outOfRange error)
  | unknownOpcode {code : OpcodeCode} :
      code ≠ .oneByte extensionByte ->
      code.bytes <+: cursor.unread ->
      catalog.lookup code = none ->
      Faults catalog cursor (.unknownOpcode code.value)
  | unsupportedOperand {opcode : Opcode} :
      catalog.Lists opcode ->
      opcode.format = .phi ->
      opcode.bytes <+: cursor.unread ->
      Faults catalog cursor (.unsupportedOperand opcode)

theorem faults_of_read {catalog : Catalog} (hcatalog : catalog.Coherent) {cursor : Cursor}
    {fault : SegmentFault} (hmore : cursor.atEnd = false)
    (h : read catalog cursor = .error fault) : Faults catalog cursor fault := by
  unfold read at h
  split at h
  · next error hcode =>
      cases h
      rcases OpcodeCode.overruns_of_read hmore hcode with ⟨hlt, hoverruns⟩
      exact Faults.outOfRange hlt hoverruns
  · next code next hcode =>
      rcases OpcodeCode.read_eq_ok_iff.mp hcode with ⟨hne, hconsumes⟩
      have hahead : code.bytes <+: cursor.unread := by
        rw [hconsumes.unread_eq]
        exact List.prefix_append _ _
      split at h
      · next hlookup =>
          cases h
          exact Faults.unknownOpcode hne hahead hlookup
      · next opcode hlookup =>
          have hbytes := Opcode.bytes_of_code? (hcatalog code opcode hlookup)
          split at h
          · next hpayload =>
              cases h
              rcases Payload.overruns_or_phi_of_read hconsumes.position_le hpayload with
                ⟨error, rfl, hoverruns⟩ | ⟨hformat, rfl⟩
              · have hpos : 0 < code.bytes.length := by
                  cases code <;> exact Nat.succ_pos _
                exact Faults.outOfRange
                  (Cursor.position_lt_of_consumes hpos hconsumes hoverruns)
                  (hoverruns.of_consumes hconsumes)
              · exact Faults.unsupportedOperand ⟨code, hlookup⟩ hformat (hbytes ▸ hahead)
          · cases h

end Segment

/-!
# Operands that do not exist
-/

def Payload.query? (context : Option GenericContext) : Payload -> Option Query
  | .string token => some (.string token)
  | .member token => some (.member token context)
  | .signature token => some (.signature token)
  | _ => Option.none

def Payload.slot? : Payload -> Option (SlotKind × UInt16)
  | .shortLocalSlot index => some (.localVariable, index.toUInt16)
  | .localSlot index => some (.localVariable, index)
  | .shortArgumentSlot index => some (.argument, index.toUInt16)
  | .argumentSlot index => some (.argument, index)
  | _ => Option.none

/-- The number of slots of a kind. The receiver takes one of the arguments. -/
def MethodBody.slotCount (body : MethodBody) : SlotKind -> Nat
  | .localVariable => body.locals.length
  | .argument => body.argumentCount

namespace Segment

/-- Why a segment has no operand. -/
inductive Lacks (oracle : Oracle) (body : MethodBody) (segment : Segment) :
    DecodeError -> Prop where
  | symbol {query : Query} {error : ResolveError} :
      segment.payload.query? body.context = some query ->
      oracle query (.error error) ->
      Lacks oracle body segment (.symbol segment.offset error)
  | slotOutOfRange {kind : SlotKind} {index : UInt16} :
      segment.payload.slot? = some (kind, index) ->
      body.slotCount kind ≤ index.toNat ->
      Lacks oracle body segment
        (.slotOutOfRange kind index (body.slotCount kind) segment.offset)

variable {oracle : Oracle} {body : MethodBody} {segment : Segment} {error : DecodeError}

theorem lacks_of_returns_symbolOperand {query : Query} {make : query.Answer -> Operand}
    (hquery : segment.payload.query? body.context = some query)
    (h : Dialogue.Returns oracle (segment.symbolOperand query make) (.error error)) :
    Lacks oracle body segment error := by
  rcases returns_symbolOperand_iff.mp h with ⟨reply, hreply, houtcome⟩
  cases reply with
  | ok answer => cases houtcome
  | error cause =>
      cases houtcome
      exact Lacks.symbol hquery hreply

theorem lacks_of_localOperand {index : UInt16}
    (hslot : segment.payload.slot? = some (.localVariable, index))
    (h : segment.localOperand body index = .error error) :
    Lacks oracle body segment error := by
  unfold localOperand at h
  split at h
  · cases h
  · next hnone =>
      cases h
      exact Lacks.slotOutOfRange hslot (List.getElem?_eq_none_iff.mp hnone)

theorem lacks_of_argumentOperand {index : UInt16}
    (hslot : segment.payload.slot? = some (.argument, index))
    (h : segment.argumentOperand body index = .error error) :
    Lacks oracle body segment error := by
  unfold argumentOperand at h
  split at h
  · cases h
  · next hnone =>
      cases h
      rw [MethodBody.argument?_eq] at hnone
      have hcount := List.getElem?_eq_none_iff.mp hnone
      rw [MethodBody.length_arguments] at hcount
      exact Lacks.slotOutOfRange hslot hcount

theorem lacks_of_returns_operand
    (h : Dialogue.Returns oracle (segment.operand body) (.error error)) :
    Lacks oracle body segment error := by
  unfold Segment.operand at h
  cases hpayload : segment.payload with
  | string token | member token | signature token =>
      simp only [hpayload] at h
      exact lacks_of_returns_symbolOperand (by rw [hpayload]; rfl) h
  | shortLocalSlot index | localSlot index =>
      simp only [hpayload] at h
      have herror := Program.returns_done_iff.mp h
      exact lacks_of_localOperand (by rw [hpayload]; rfl) herror.symm
  | shortArgumentSlot index | argumentSlot index =>
      simp only [hpayload] at h
      have herror := Program.returns_done_iff.mp h
      exact lacks_of_argumentOperand (by rw [hpayload]; rfl) herror.symm
  | _ =>
      simp only [hpayload] at h
      cases Program.returns_done_iff.mp h

end Segment

end CilDisasm
