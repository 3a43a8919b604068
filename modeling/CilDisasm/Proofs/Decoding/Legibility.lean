import CilDisasm.Proofs.Decoding.Concatenation
import CilDisasm.Proofs.Decoding.Reassembly
import CilDisasm.Proofs.Listing.Lines
import CilDisasm.Proofs.Opcode.Names
import Std.Data.String.ToInt

/-!
# Bytes from texts

Symbols, slots and floats can read alike although they were written differently. Where an
operand is an integer or a place, its text says all that has to be written for it. So in the
standard catalog the text of a listing of such instructions determines the bytes that it was
decoded from, whatever else the method bodies contain.
-/

namespace CilDisasm

/-!
# Moved instructions are written alike
-/

namespace Instruction.Moves

variable {distance : Nat} {instruction other : Instruction}

theorem size_eq (h : instruction.Moves distance other) : other.size = instruction.size := by
  have hoperand := h.operand
  have hoperandSize : other.operandSize = instruction.operandSize := by
    unfold operandSize
    rw [h.opcode_eq]
    cases hcases : instruction.operand with
    | branch target =>
        rw [hcases] at hoperand
        rcases hoperand with ⟨moved, hmoved, -⟩
        rw [hmoved]
        cases instruction.opcode.format <;> rfl
    | switch targets =>
        rw [hcases] at hoperand
        rcases hoperand with ⟨moved, hmoved, hplaces⟩
        rw [hmoved]
        cases instruction.opcode.format with
        | switch => exact congrArg (fun count => 4 * (1 + count)) hplaces.length_eq.symm
        | _ => rfl
    | _ =>
        rw [hcases] at hoperand
        simp only [show other.operand = _ from hoperand]
  rw [Instruction.size, Instruction.size, h.opcode_eq, hoperandSize]

theorem distance_eq (h : instruction.Moves distance other) {target moved : Target}
    (hplace : moved.offset = target.offset + distance) :
    other.distance moved = instruction.distance target := by
  rw [Instruction.distance, Instruction.distance, h.offset_eq, h.size_eq, hplace]
  omega

theorem payload?_eq (h : instruction.Moves distance other) (hasReceiver : Bool) :
    other.payload? hasReceiver = instruction.payload? hasReceiver := by
  have hoperand := h.operand
  unfold payload?
  rw [h.opcode_eq]
  cases hcases : instruction.operand with
  | branch target =>
      rw [hcases] at hoperand
      rcases hoperand with ⟨moved, hmoved, hplace⟩
      rw [hmoved]
      cases instruction.opcode.format with
      | shortBranch | branch => simp only [h.distance_eq hplace]
      | _ => rfl
  | switch targets =>
      rw [hcases] at hoperand
      rcases hoperand with ⟨moved, hmoved, hplaces⟩
      have hdistances :
          (moved.mapM fun target =>
              narrow? Int32.ofInt Int32.toInt (other.distance target)) =
            targets.mapM fun target =>
              narrow? Int32.ofInt Int32.toInt (instruction.distance target) := by
        clear hcases hmoved
        induction hplaces with
        | nil => rw [List.mapM_nil, List.mapM_nil]
        | cons hplace _ ih => rw [List.mapM_cons, List.mapM_cons, h.distance_eq hplace, ih]
      rw [hmoved]
      cases instruction.opcode.format with
      | switch => simp only [hdistances]
      | _ => rfl
  | _ =>
      rw [hcases] at hoperand
      rw [show other.operand = _ from hoperand]
      cases instruction.opcode.format <;> rfl

theorem statement?_eq (h : instruction.Moves distance other) (hasReceiver : Bool) :
    other.statement? hasReceiver = instruction.statement? hasReceiver := by
  rw [statement?, statement?, h.payload?_eq, h.opcode_eq]

end Instruction.Moves

/-!
# Integers and places
-/

def OperandFormat.isNumeric : OperandFormat -> Bool
  | none | shortInt | int | long | shortBranch | branch | switch => true
  | _ => false

theorem OperandFormat.isToken_eq_false_of_isNumeric {format : OperandFormat}
    (h : format.isNumeric = true) : format.isToken = false := by
  cases format <;> first | rfl | cases h

theorem OperandFormat.isSlot_eq_false_of_isNumeric {format : OperandFormat}
    (h : format.isNumeric = true) : format.isSlot = false := by
  cases format <;> first | rfl | cases h

inductive Operand.Numeric (signed : Bool) : OperandFormat -> Operand -> Prop where
  | none : Numeric signed .none .none
  | int8 (hsigned : signed = true) (value : Int8) : Numeric signed .shortInt (.int8 value)
  | uint8 (hunsigned : signed = false) (value : UInt8) :
      Numeric signed .shortInt (.uint8 value)
  | int32 (value : Int32) : Numeric signed .int (.int32 value)
  | int64 (value : Int64) : Numeric signed .long (.int64 value)
  | shortBranch (target : Target) : Numeric signed .shortBranch (.branch target)
  | branch (target : Target) : Numeric signed .branch (.branch target)
  | switch (targets : List Target) : Numeric signed .switch (.switch targets)

namespace Operand.Numeric

variable {signed : Bool} {format : OperandFormat} {left right : Operand}

/-- The text of an operand says everything but which instructions its targets are. -/
theorem moves_of_text_eq (hleft : Numeric signed format left)
    (hright : Numeric signed format right) (h : left.text = right.text) :
    left.Moves 0 right := by
  cases hleft with
  | none =>
      cases hright
      rfl
  | int8 hsigned value =>
      cases hright with
      | int8 _ other => rw [Int8.toInt_inj.mp (Int.repr_injective h)]; rfl
      | uint8 hunsigned other =>
          rw [hsigned] at hunsigned
          cases hunsigned
  | uint8 hunsigned value =>
      cases hright with
      | int8 hsigned other =>
          rw [hunsigned] at hsigned
          cases hsigned
      | uint8 _ other => rw [UInt8.toNat_inj.mp (Nat.repr_injective h)]; rfl
  | int32 value =>
      cases hright with
      | int32 other => rw [Int32.toInt_inj.mp (Int.repr_injective h)]; rfl
  | int64 value =>
      cases hright with
      | int64 other => rw [Int64.toInt_inj.mp (Int.repr_injective h)]; rfl
  | shortBranch target =>
      cases hright with
      | shortBranch other =>
          refine ⟨other, rfl, ?_⟩
          rw [Target.offset_eq_of_text_eq h]
          exact (Int.add_zero _).symm
  | branch target =>
      cases hright with
      | branch other =>
          refine ⟨other, rfl, ?_⟩
          rw [Target.offset_eq_of_text_eq h]
          exact (Int.add_zero _).symm
  | switch targets =>
      cases hright with
      | switch others =>
          refine ⟨others, rfl, ?_⟩
          apply (Target.forall₂_offset_eq_of_intercalate_eq h).imp
          intro target other hoffset
          rw [hoffset]
          exact (Int.add_zero _).symm

theorem newline_notMem_text (h : Numeric signed format left) : '\n' ∉ left.text.toList := by
  apply newline_notMem_text_of_words_eq_nil
  cases h <;> rfl

end Operand.Numeric

theorem Payload.numeric_of_links {payload : Payload} {oracle : Oracle} {body : MethodBody}
    {limit : Nat} {opcode : Opcode} {operand linked : Operand} {listing : Listing}
    (hformat : opcode.format.isNumeric = true) (hsuits : payload.Suits opcode)
    (hdenotes : payload.Denotes oracle body limit operand)
    (hlinks : listing.Links operand linked) :
    linked.Numeric opcode.loadsSignedByte opcode.format := by
  unfold Suits at hsuits
  cases hcases : opcode.format with
  | none =>
      rw [hcases] at hsuits
      subst hsuits
      cases hdenotes
      rw [show linked = .none from hlinks]
      exact .none
  | shortInt =>
      rw [hcases] at hsuits
      simp only at hsuits
      split at hsuits
      · next hsigned =>
          rcases hsuits with ⟨value, rfl⟩
          cases hdenotes
          rw [show linked = .int8 value from hlinks]
          exact .int8 (decide_eq_true hsigned) value
      · next hunsigned =>
          rcases hsuits with ⟨value, rfl⟩
          cases hdenotes
          rw [show linked = .uint8 value from hlinks]
          exact .uint8 (decide_eq_false hunsigned) value
  | int =>
      rw [hcases] at hsuits
      rcases hsuits with ⟨value, rfl⟩
      cases hdenotes
      rw [show linked = .int32 value from hlinks]
      exact .int32 value
  | long =>
      rw [hcases] at hsuits
      rcases hsuits with ⟨value, rfl⟩
      cases hdenotes
      rw [show linked = .int64 value from hlinks]
      exact .int64 value
  | shortBranch =>
      rw [hcases] at hsuits
      rcases hsuits with ⟨distance, rfl⟩
      cases hdenotes
      rcases hlinks with ⟨target, -, rfl⟩
      exact .shortBranch target
  | branch =>
      rw [hcases] at hsuits
      rcases hsuits with ⟨distance, rfl⟩
      cases hdenotes
      rcases hlinks with ⟨target, -, rfl⟩
      exact .branch target
  | switch =>
      rw [hcases] at hsuits
      rcases hsuits with ⟨distances, rfl⟩
      cases hdenotes
      rcases hlinks with ⟨targets, -, rfl⟩
      exact .switch targets
  | _ =>
      rw [hcases] at hformat
      cases hformat

/-!
# Lines and statements
-/

/-- An instruction of the standard catalog that was decoded from a statement and whose
operand is an integer or a place. -/
structure Instruction.Tells (instruction : Instruction) (statement : Statement) : Prop where
  lists : Catalog.standard.Lists instruction.opcode
  numeric :
    instruction.operand.Numeric instruction.opcode.loadsSignedByte instruction.opcode.format
  statement?_eq : instruction.statement? false = some statement

namespace Instruction.Tells

variable {left right : Instruction} {statement other : Statement}

theorem notMem_name {separator : Char} (h : left.Tells statement)
    (halphanum : separator.isAlphanum = false) (hdot : separator ≠ '.') :
    separator ∉ left.opcode.name.toList :=
  Catalog.notMem_name_of_lists h.lists halphanum hdot

theorem newline_notMem_text (h : left.Tells statement) : '\n' ∉ left.text.toList := by
  rw [Instruction.newline_mem_text_iff (h.notMem_name (by decide) (by decide))]
  exact h.numeric.newline_notMem_text

/-- Lines that read alike were decoded from the same statement. -/
theorem statement_eq_of_text_eq (hleft : left.Tells statement) (hright : right.Tells other)
    (h : left.text = right.text) : statement = other := by
  have hblank : ' '.isAlphanum = false := by
    decide
  -- Where equal offsets meet equal sizes, equal places are equal distances.
  rcases Instruction.eq_of_text_eq (hleft.notMem_name hblank (by decide))
    (hright.notMem_name hblank (by decide)) h with ⟨hoffset, hname, htext⟩
  have hopcode := Opcode.eq_of_name_eq (Catalog.mem_publicSet_of_lists hleft.lists)
    (Catalog.mem_publicSet_of_lists hright.lists) hname
  have hnumeric := hright.numeric
  rw [← hopcode] at hnumeric
  have hmoves : left.Moves 0 right :=
    { offset_eq := hoffset.symm
      opcode_eq := hopcode.symm
      operand := hleft.numeric.moves_of_text_eq hnumeric htext }
  have hsame := hmoves.statement?_eq false
  rw [hleft.statement?_eq, hright.statement?_eq] at hsame
  exact (Option.some.inj hsame).symm

variable {statements others : List Statement} {instructions found : List Instruction}

theorem newline_notMem_of_forall₂
    (h : List.Forall₂ (fun statement instruction => instruction.Tells statement)
      statements instructions) :
    forall instruction, instruction ∈ instructions -> '\n' ∉ instruction.text.toList := by
  induction h with
  | nil =>
      intro instruction hmem
      cases hmem
  | cons hfirst _ ih =>
      intro instruction hmem
      rcases List.mem_cons.mp hmem with rfl | hrest
      · exact hfirst.newline_notMem_text
      · exact ih instruction hrest

theorem statements_eq_of_forall₂
    (hleft : List.Forall₂ (fun statement instruction => instruction.Tells statement)
      statements instructions)
    (hright : List.Forall₂ (fun statement instruction => instruction.Tells statement)
      others found)
    (h : List.Forall₂ (fun instruction other : Instruction => instruction.text = other.text)
      instructions found) :
    statements = others := by
  induction h generalizing statements others with
  | nil =>
      cases hleft
      cases hright
      rfl
  | cons htext _ ih =>
      cases hleft with
      | cons hfirst hrest =>
          cases hright with
          | cons hother hothers =>
              rw [hfirst.statement_eq_of_text_eq hother htext, ih hrest hothers]

end Instruction.Tells

/-!
# Listings and bytes
-/

namespace MethodBody

theorem exists_tells_of_run {body : MethodBody} {σ : Type}
    {respond : Program.Responder dialogueInterface σ} {state : σ} {listing : Listing}
    (hdecode : ((body.decode .standard).run respond state).1 = .ok listing)
    (hnumeric : forall instruction, instruction ∈ listing.toList ->
      instruction.opcode.format.isNumeric = true) :
    exists statements : List Statement,
      Statement.codeOf statements = body.code ∧
        List.Forall₂ (fun statement instruction => instruction.Tells statement)
          statements listing.toList := by
  have hcoherent := Catalog.coherent_ofDefinitions Catalog.ofDefinitions_standardSet
  rcases exists_transcribes_of_run hcoherent hdecode with
    ⟨hlength, statements, operands, htranscribes, rfl⟩
  refine ⟨statements, htranscribes.codeOf_eq, ?_⟩
  apply htranscribes.forall₂_toList hcoherent hlength
  intro index statement instruction hget hstatement hrenders
  have hformat := hnumeric instruction (Listing.mem_toList_of_get? hget)
  rcases hrenders.exists_denotes htranscribes hstatement with
    ⟨hsuits, operand, hdenotes, hlinks⟩
  constructor
  · rw [hrenders.opcode_eq]
    exact (htranscribes.legal statement (List.mem_of_getElem? hstatement)).lists
  · exact Payload.numeric_of_links hformat hsuits hdenotes hlinks
  · have htoken := OperandFormat.isToken_eq_false_of_isNumeric hformat
    have hslot := OperandFormat.isSlot_eq_false_of_isNumeric hformat
    rw [Instruction.statement?, hrenders.opcode_eq,
      Payload.payload?_of_isSlot_eq_false htoken hslot hsuits hdenotes hlinks]
    rfl

/-- Listings of integers and places that read alike were decoded from the same bytes,
whatever else is known of the method bodies and however their queries are answered. -/
theorem code_eq_of_text_eq {left right : MethodBody} {σ τ : Type}
    {respond : Program.Responder dialogueInterface σ} {state : σ}
    {other : Program.Responder dialogueInterface τ} {otherState : τ}
    {listing found : Listing}
    (hleft : ((left.decode .standard).run respond state).1 = .ok listing)
    (hright : ((right.decode .standard).run other otherState).1 = .ok found)
    (hlisting : forall instruction, instruction ∈ listing.toList ->
      instruction.opcode.format.isNumeric = true)
    (hfound : forall instruction, instruction ∈ found.toList ->
      instruction.opcode.format.isNumeric = true)
    (htext : listing.text = found.text) : left.code = right.code := by
  rcases exists_tells_of_run hleft hlisting with ⟨statements, hcode, htells⟩
  rcases exists_tells_of_run hright hfound with ⟨others, hothers, htells'⟩
  have hlines := Listing.forall₂_text_eq_of_text_eq
    (Instruction.Tells.newline_notMem_of_forall₂ htells)
    (Instruction.Tells.newline_notMem_of_forall₂ htells') htext
  rw [← hcode, ← hothers, Instruction.Tells.statements_eq_of_forall₂ htells htells' hlines]

def numericBody : MethodBody :=
  MethodBody.ofCode
    [0x1F, 0xFB, 0x2B, 0xFC, 0x45, 0x00, 0x00, 0x00, 0x00, 0x38, 0xEE, 0xFF, 0xFF, 0xFF,
      0x20, 0x40, 0x9C, 0x00, 0x00, 0x21, 0x01, 0x00, 0x00, 0x00, 0x00, 0x00, 0x00, 0x80,
      0xFE, 0x12, 0xFF, 0x2A]

/-- The listing does not tell whether a body has a receiver, but it tells the bytes. -/
theorem code_eq_of_text_eq_numericBody :
    exists listing : Listing, exists found : Listing,
      ((numericBody.decode .standard).run Sample.metadata.resolve.respondOnly ()).1 =
          .ok listing ∧
        (({ numericBody with hasReceiver := true }.decode .standard).run
            Sample.metadata.resolve.respondOnly ()).1 = .ok found ∧
        listing.text = found.text ∧
        numericBody.code = { numericBody with hasReceiver := true }.code := by
  have hboth :
      (({ numericBody with hasReceiver := true }.decode .standard).run
            Sample.metadata.resolve.respondOnly ()).1 =
          ((numericBody.decode .standard).run Sample.metadata.resolve.respondOnly ()).1 ∧
        ((((numericBody.decode .standard).run
          Sample.metadata.resolve.respondOnly ()).1).toOption.any fun listing =>
            listing.toList.all fun instruction =>
              instruction.opcode.format.isNumeric) = true := by
    decide +kernel
  rcases Listing.exists_of_all hboth.2 with ⟨listing, hdecode, hnumeric⟩
  have hother := hboth.1.trans hdecode
  exact ⟨listing, listing, hdecode, hother, rfl,
    code_eq_of_text_eq hdecode hother hnumeric hnumeric rfl⟩

end MethodBody

end CilDisasm
