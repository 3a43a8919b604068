import CilDisasm.Proofs.Decoding.Transcription

/-!
# Branches

The distance of a branch counts from the end of its instruction, and a jump table has one
distance for each of its entries. After decoding every target is the label of the
instruction that starts at its destination, or the destination itself when no instruction
does. Other instructions have no targets.
-/

namespace CilDisasm
namespace Listing

/-- The operands that the distances of a branch whose instruction ends at `limit` call
for. -/
inductive BranchesTo (listing : Listing) (limit : Nat) : Payload -> Operand -> Prop where
  | shortBranch {distance : Int8} {target : Target} :
      listing.Lands (limit + distance.toInt) target ->
      BranchesTo listing limit (.shortBranch distance) (.branch target)
  | branch {distance : Int32} {target : Target} :
      listing.Lands (limit + distance.toInt) target ->
      BranchesTo listing limit (.branch distance) (.branch target)
  | switch {distances : List Int32} {targets : List Target} :
      List.Forall₂
        (fun distance target => listing.Lands (limit + distance.toInt) target)
        distances targets ->
      BranchesTo listing limit (.switch distances) (.switch targets)

end Listing

namespace Payload

variable {payload : Payload} {oracle : Oracle} {body : MethodBody} {limit : Nat}
  {listing : Listing} {operand linked : Operand}

theorem branchesTo_of_links (hbranch : payload.isBranch = true)
    (hdenotes : payload.Denotes oracle body limit operand)
    (hlinks : listing.Links operand linked) : listing.BranchesTo limit payload linked := by
  cases payload with
  | shortBranch distance =>
      cases hdenotes
      rcases hlinks with ⟨target, hlands, rfl⟩
      exact Listing.BranchesTo.shortBranch hlands
  | branch distance =>
      cases hdenotes
      rcases hlinks with ⟨target, hlands, rfl⟩
      exact Listing.BranchesTo.branch hlands
  | switch distances =>
      cases hdenotes
      rcases hlinks with ⟨targets, hlands, rfl⟩
      rw [List.forall₂_map_left_iff] at hlands
      exact Listing.BranchesTo.switch hlands
  | _ => cases hbranch

theorem targets_eq_nil_of_links (hbranch : payload.isBranch = false)
    (hdenotes : payload.Denotes oracle body limit operand)
    (hlinks : listing.Links operand linked) : linked.targets = [] := by
  have htargets := targets_eq_nil_of_denotes hdenotes hbranch
  rw [hlinks.eq_of_targets_eq_nil htargets]
  exact htargets

end Payload

namespace MethodBody

variable {catalog : Catalog}

/-- Whatever the replies to its queries are, a decoding that succeeds has every branch lead
where its distances say, and gives targets to branches only. -/
theorem branchesTo_of_decode {definitions : List Opcode} {σ : Type}
    (hcatalog : Catalog.ofDefinitions definitions = .ok catalog) (body : MethodBody)
    (respond : Program.Responder dialogueInterface σ) (state : σ) {listing : Listing}
    (hdecode : ((body.decode catalog).run respond state).1 = .ok listing) {index : Nat}
    {instruction : Instruction} (hget : listing.get? index = some instruction) :
    (instruction.opcode.format.isBranch = true ->
      exists payload : Payload,
        payload.Suits instruction.opcode ∧
          instruction.opcode.bytes ++ payload.bytes <+:
            body.code.drop instruction.offset ∧
          listing.BranchesTo (instruction.offset + instruction.size) payload
            instruction.operand) ∧
      (instruction.opcode.format.isBranch = false -> instruction.operand.targets = []) := by
  have hcoherent := Catalog.coherent_ofDefinitions hcatalog
  rcases exists_transcribes_of_run hcoherent hdecode with
    ⟨hlength, statements, operands, htranscribes, rfl⟩
  rcases htranscribes.exists_renders hcoherent hlength hget with
    ⟨statement, hstatement, hrenders⟩
  rcases hrenders.links with ⟨operand, hoperand, hlinks⟩
  have hlegal := htranscribes.legal statement (List.mem_of_getElem? hstatement)
  have hdenotes := htranscribes.denotes hstatement hoperand
  rw [Statement.offsetAt_succ hstatement, ← hrenders.offset_eq, ← hrenders.size_eq]
    at hdenotes
  rw [hrenders.opcode_eq, ← Payload.isBranch_of_suits hlegal.suits]
  constructor
  · intro hbranch
    refine ⟨statement.payload, hlegal.suits, ?_, ?_⟩
    · rw [hrenders.offset_eq, ← htranscribes.codeOf_eq]
      exact Statement.bytes_prefix_drop hstatement
    · exact Payload.branchesTo_of_links hbranch hdenotes hlinks
  · intro hbranch
    exact Payload.targets_eq_nil_of_links hbranch hdenotes hlinks

theorem branchesTo_of_decode_loopBody :
    exists listing : Listing, exists instruction : Instruction,
      ((Sample.loopBody.decode .standard).run Sample.metadata.resolve.respondOnly ()).1 =
          .ok listing ∧
        listing.get? 4 = some instruction ∧
        exists payload : Payload,
          payload.Suits instruction.opcode ∧
            instruction.opcode.bytes ++ payload.bytes <+:
              Sample.loopBody.code.drop instruction.offset ∧
            listing.BranchesTo (instruction.offset + instruction.size) payload
              instruction.operand := by
  rcases exists_result_loopBody with ⟨listing, instruction, hdecode, hget, hbranch⟩
  rw [Dialogue.result] at hdecode
  have hleads := branchesTo_of_decode Catalog.ofDefinitions_standardSet Sample.loopBody
    Sample.metadata.resolve.respondOnly () hdecode hget
  exact ⟨listing, instruction, hdecode, hget, hleads.1 hbranch⟩

end MethodBody

end CilDisasm
