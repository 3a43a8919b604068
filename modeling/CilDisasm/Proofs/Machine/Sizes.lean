import CilDisasm.Proofs.Decoding.Branches
import CilDisasm.Proofs.Decoding.Layout
import CilDisasm.Proofs.Decoding.Reassembly
import CilDisasm.Proofs.Machine.Agreement

/-!
# Sizes and destinations with machine numbers

The size of an instruction is a number of 32 bits, and the size of a listing one of 64 bits.
Both are computed from operands, long after the bytes have been read. They are exact for
decoded listings, since these fill a method body and no instruction is larger than that. For
the same reason no destination is farther away than a distance from the end of the body.
-/

namespace CilDisasm

open Machine (add? cast? mul?)
open Statement (codeOf offsetAt)

def Instruction.machineOperandSize (instruction : Instruction) : Option UInt32 :=
  match instruction.opcode.format, instruction.operand with
  | .switch, .switch targets =>
      (cast? UInt64.toUInt32 (UInt64.ofNat targets.length)).bind fun count =>
        (add? 1 count).bind fun words => mul? 4 words
  | format, _ => some (UInt32.ofNat (format.width?.getD 4))

def Instruction.machineSize (instruction : Instruction) : Option UInt32 :=
  instruction.machineOperandSize.bind fun operandSize =>
    add? instruction.opcode.size.toUInt32 operandSize

def Listing.machineByteLength (listing : Listing) : Option UInt64 :=
  listing.toList.foldlM
    (fun total instruction =>
      instruction.machineSize.bind fun size => add? total size.toUInt64)
    0

/-- The number of slots for arguments, which is reported when a slot is out of range. -/
def MethodBody.machineArgumentCount (body : MethodBody) : Option UInt64 :=
  add? (UInt64.ofNat body.parameters.length) (if body.hasReceiver then 1 else 0)

/-- An instruction whose numbers the machine can hold. -/
structure Instruction.Manageable (instruction : Instruction) : Prop where
  offset_target : forall target, target ∈ instruction.operand.targets ->
    -0x80000000 < target.offset ∧ target.offset < 0x100000000 + 0x80000000
  size_lt : instruction.size < 0x100000000
  machineSize_eq : instruction.machineSize = some (UInt32.ofNat instruction.size)

structure Listing.Manageable (listing : Listing) (length : Nat) : Prop where
  length_le : listing.length ≤ length
  instructions : forall instruction, instruction ∈ listing.toList -> instruction.Manageable
  byteLength_eq : listing.byteLength = length
  machineByteLength_eq : listing.machineByteLength = some (UInt64.ofNat length)

/-!
# Sizes
-/

namespace Instruction

variable {instruction : Instruction}

theorem machineOperandSize_eq (h : instruction.operandSize < UInt32.size) :
    instruction.machineOperandSize = some (UInt32.ofNat instruction.operandSize) := by
  unfold machineOperandSize
  split
  · next targets hformat hoperand =>
      have hsize : instruction.operandSize = 4 * (1 + targets.length) := by
        simp only [operandSize, hformat, hoperand]
      rw [hsize] at h ⊢
      have hwords : 1 + targets.length < UInt32.size :=
        Nat.lt_of_le_of_lt (Nat.le_mul_of_pos_left _ (by decide)) h
      have hcount : targets.length < UInt32.size :=
        Nat.lt_of_le_of_lt (Nat.le_add_left _ 1) hwords
      have hone : add? 1 (UInt32.ofNat targets.length) =
          some (UInt32.ofNat (1 + targets.length)) :=
        Machine.add?_ofNat_uint32 hwords
      have hfour : mul? 4 (UInt32.ofNat (1 + targets.length)) =
          some (UInt32.ofNat (4 * (1 + targets.length))) :=
        Machine.mul?_ofNat_uint32 (by decide) hwords h
      rw [Machine.cast?_toUInt32_ofNat hcount, Option.bind_some, hone, Option.bind_some, hfour]
  · next hother =>
      have hsize : instruction.operandSize = instruction.opcode.format.width?.getD 4 := by
        unfold operandSize
        split
        · next targets hformat hoperand => exact (hother targets hformat hoperand).elim
        · rfl
      rw [hsize]

theorem machineSize_eq_of_lt (h : instruction.size < UInt32.size) :
    instruction.machineSize = some (UInt32.ofNat instruction.size) := by
  have hoperand : instruction.operandSize < UInt32.size :=
    Nat.lt_of_le_of_lt (Nat.le_add_left _ _) h
  rw [machineSize, machineOperandSize_eq hoperand, Option.bind_some,
    ← UInt32.ofNat_uInt8ToNat]
  exact Machine.add?_ofNat_uint32 h

end Instruction

namespace Listing

theorem le_foldl_add (sizes : List Nat) (start : Nat) : start ≤ sizes.foldl Nat.add start := by
  induction sizes generalizing start with
  | nil => exact Nat.le_refl start
  | cons size rest ih => exact Nat.le_trans (Nat.le_add_right start size) (ih _)

/-- A sum that 32 bits can hold is computed exactly, and so is every size in it. -/
theorem foldlM_machineSize {instructions : List Instruction} {start : Nat}
    (h : (instructions.map Instruction.size).foldl Nat.add start < UInt32.size) :
    instructions.foldlM
        (fun total instruction =>
          instruction.machineSize.bind fun size => add? total size.toUInt64)
        (UInt64.ofNat start) =
      some (UInt64.ofNat ((instructions.map Instruction.size).foldl Nat.add start)) := by
  induction instructions generalizing start with
  | nil => rfl
  | cons instruction rest ih =>
      rw [List.map_cons, List.foldl_cons] at h ⊢
      have hsum : start + instruction.size < UInt32.size :=
        Nat.lt_of_le_of_lt (le_foldl_add _ _) h
      have hsize : instruction.size < UInt32.size :=
        Nat.lt_of_le_of_lt (Nat.le_add_left _ _) hsum
      have hwide : (UInt32.ofNat instruction.size).toUInt64 = UInt64.ofNat instruction.size := by
        rw [← UInt64.ofNat_toNat (x := (UInt32.ofNat instruction.size).toUInt64),
          UInt32.toNat_toUInt64, UInt32.toNat_ofNat_of_lt' hsize]
      have hadd := Machine.add?_ofNat_uint64 (Nat.lt_trans hsum (by decide))
      rw [List.foldlM_cons, Instruction.machineSize_eq_of_lt hsize, Option.bind_some, hwide,
        hadd]
      exact ih h

theorem machineByteLength_eq_of_lt {listing : Listing} (h : listing.byteLength < UInt32.size) :
    listing.machineByteLength = some (UInt64.ofNat listing.byteLength) := by
  rw [byteLength_eq_foldl] at h ⊢
  exact foldlM_machineSize h

end Listing

theorem Statement.length_le_length_codeOf (statements : List Statement) :
    statements.length ≤ (codeOf statements).length := by
  induction statements with
  | nil => exact Nat.le_refl 0
  | cons statement rest ih =>
      rw [List.length_cons, Statement.codeOf_cons, List.length_append, Nat.add_comm]
      exact Nat.add_le_add statement.length_bytes_pos ih

/-!
# Destinations
-/

theorem OperandFormat.Reaches.isDistance {format : OperandFormat} {distance : Int}
    (h : format.Reaches distance) : Machine.IsDistance distance := by
  cases format with
  | shortBranch =>
      rcases h with ⟨hlower, hupper⟩
      exact ⟨Int.le_trans (by decide) hlower, Int.lt_of_lt_of_le hupper (by decide)⟩
  | branch | switch => exact h
  | _ => cases h

theorem Instruction.offset_target_eq (instruction : Instruction) (target : Target) :
    target.offset =
      instruction.distance target + (instruction.offset + instruction.size : Nat) := by
  rw [Instruction.distance]
  exact (Int.sub_add_cancel _ _).symm

namespace MethodBody

variable {body : MethodBody} {oracle : Oracle} {catalog : Catalog}
  {statements : List Statement} {operands : List Operand} {instruction : Instruction}

namespace Transcribes

theorem reaches (h : body.Transcribes oracle catalog statements operands) {listing : Listing}
    {index : Nat} {statement : Statement} (hstatement : statements[index]? = some statement)
    (hrenders : Renders listing statements operands index statement instruction)
    {target : Target} (htarget : target ∈ instruction.operand.targets) :
    instruction.opcode.format.Reaches (instruction.distance target) := by
  rcases hrenders.exists_denotes h hstatement with ⟨hsuits, operand, hdenotes, hlinks⟩
  cases hbranch : instruction.opcode.format.isBranch with
  | true =>
      have hpayload := Payload.payload?_of_branch hbranch hsuits hdenotes hlinks false
      have htargets : target ∈ instruction.targets := by
        rw [Instruction.targets, if_pos hbranch]
        exact htarget
      exact Instruction.reaches_of_payload? hpayload htargets
  | false =>
      rw [← Payload.isBranch_of_suits hsuits] at hbranch
      rw [Payload.targets_eq_nil_of_links hbranch hdenotes hlinks] at htarget
      cases htarget

theorem stop_le (h : body.Transcribes oracle catalog statements operands) {listing : Listing}
    {index : Nat} {statement : Statement} (hstatement : statements[index]? = some statement)
    (hrenders : Renders listing statements operands index statement instruction) :
    0 < instruction.offset + instruction.size ∧
      instruction.offset + instruction.size ≤ body.code.length := by
  rcases List.getElem?_eq_some_iff.mp hstatement with ⟨hindex, -⟩
  rw [hrenders.offset_eq, hrenders.size_eq]
  constructor
  · exact Nat.add_pos_right _ statement.length_bytes_pos
  · rw [← Statement.offsetAt_succ hstatement, ← h.codeOf_eq, ← Statement.offsetAt_length]
    exact Statement.offsetAt_le hindex

theorem manageable_instruction (h : body.Transcribes oracle catalog statements operands)
    (hlength : body.code.length < codeLengthLimit) {listing : Listing} {index : Nat}
    {statement : Statement} (hstatement : statements[index]? = some statement)
    (hrenders : Renders listing statements operands index statement instruction) :
    instruction.Manageable := by
  rcases h.stop_le hstatement hrenders with ⟨hpos, hstop⟩
  have hlimit : instruction.offset + instruction.size < 0x100000000 :=
    Nat.lt_of_le_of_lt hstop hlength
  have hsize : instruction.size < 0x100000000 :=
    Nat.lt_of_le_of_lt (Nat.le_add_left _ _) hlimit
  constructor
  · intro target htarget
    rcases (h.reaches hstatement hrenders htarget).isDistance with ⟨hlower, hupper⟩
    rw [instruction.offset_target_eq target]
    omega
  · exact hsize
  · exact Instruction.machineSize_eq_of_lt hsize

theorem manageable (hcatalog : catalog.Coherent)
    (h : body.Transcribes oracle catalog statements operands)
    (hlength : body.code.length < codeLengthLimit) :
    (Listing.compose statements operands).resolveTargets.Manageable body.code.length := by
  have hbytes := (h.tiles hcatalog hlength).byteLength_eq
  constructor
  · rw [Listing.length_resolveTargets, h.length_compose, ← h.codeOf_eq]
    exact Statement.length_le_length_codeOf statements
  · intro instruction hinstruction
    rcases Listing.exists_get?_of_mem_toList hinstruction with ⟨index, hget⟩
    rcases h.exists_renders hcatalog hlength hget with ⟨statement, hstatement, hrenders⟩
    exact h.manageable_instruction hlength hstatement hrenders
  · exact hbytes
  · rw [Listing.machineByteLength_eq_of_lt (hbytes ▸ hlength), hbytes]

end Transcribes

theorem machineArgumentCount_eq (h : body.parameters.length < 0x8000000000000000) :
    body.machineArgumentCount = some (UInt64.ofNat body.argumentCount) := by
  have hbit : (if body.hasReceiver then 1 else 0 : Nat) ≤ 1 := by
    split <;> decide
  have hsum : body.argumentCount < UInt64.size :=
    Nat.lt_of_le_of_lt (Nat.add_le_add (Nat.le_of_lt h) hbit) (by decide)
  have hreceiver : (if body.hasReceiver then 1 else 0 : UInt64) =
      UInt64.ofNat (if body.hasReceiver then 1 else 0) := by
    split <;> rfl
  rw [machineArgumentCount, hreceiver]
  exact Machine.add?_ofNat_uint64 hsum

/-!
# No operation is inexact
-/

/-- Whatever the bytes of the method body and the replies to queries are, decoding with
machine numbers ends, and always as decoding without them does: no operation wraps around,
cuts bits off, saturates or leaves the buffer. -/
theorem exact_machineDecode {definitions : List Opcode} {σ : Type}
    (hcatalog : Catalog.ofDefinitions definitions = .ok catalog) (body : MethodBody)
    (hlength : body.code.length < codeLengthLimit)
    (respond : Program.Responder dialogueInterface σ) (state : σ) :
    body.machineDecode catalog =
        (body.decode catalog).bind (fun outcome => .done (some outcome)) ∧
      (exists outcome : Except DecodeError Listing,
        ((body.machineDecode catalog).run respond state).1 = some outcome) ∧
      (forall listing : Listing,
        ((body.machineDecode catalog).run respond state).1 = some (.ok listing) ->
          listing.Manageable body.code.length) ∧
      (body.parameters.length < 0x8000000000000000 ->
        body.machineArgumentCount = some (UInt64.ofNat body.argumentCount)) := by
  have hcoherent := Catalog.coherent_ofDefinitions hcatalog
  have hsame := machineDecode_eq hcoherent body hlength
  have hrun : ((body.machineDecode catalog).run respond state).1 =
      some ((body.decode catalog).run respond state).1 := by
    rw [hsame, Program.run_bind]
    rfl
  refine ⟨hsame, ⟨_, hrun⟩, ?_, machineArgumentCount_eq⟩
  intro listing hlisting
  have hdecode := Option.some.inj (hrun.symm.trans hlisting)
  rcases exists_transcribes_of_run hcoherent hdecode with
    ⟨-, statements, operands, htranscribes, rfl⟩
  exact htranscribes.manageable hcoherent hlength

theorem exact_machineDecode_loopBody :
    exists listing : Listing,
      ((Sample.loopBody.machineDecode .standard).run
          Sample.metadata.resolve.respondOnly ()).1 = some (.ok listing) ∧
        listing.Manageable Sample.loopBody.code.length := by
  rcases exists_result_loopBody with ⟨listing, -, hdecode, -⟩
  rw [Dialogue.result] at hdecode
  have hexact := exact_machineDecode Catalog.ofDefinitions_standardSet Sample.loopBody
    (by decide +kernel) Sample.metadata.resolve.respondOnly ()
  have hrun : ((Sample.loopBody.machineDecode .standard).run
      Sample.metadata.resolve.respondOnly ()).1 = some (.ok listing) := by
    rw [hexact.1, Program.run_bind, hdecode]
    rfl
  exact ⟨listing, hrun, hexact.2.2.1 listing hrun⟩

end MethodBody

end CilDisasm
