import CilDisasm.Proofs.Decoding.Transcription
import CilDisasm.Proofs.Listing.Lines
import CilDisasm.Proofs.Opcode.Names

/-!
# Lines of a decoded listing

The names of the standard catalog have no line ends, so whether the text of a decoded listing
has one line for each instruction depends on what the metadata and the method body name.
-/

namespace CilDisasm
namespace MethodBody

theorem lists_of_run {body : MethodBody} {catalog : Catalog} {σ : Type}
    (hcatalog : catalog.Coherent) {respond : Program.Responder dialogueInterface σ} {state : σ}
    {listing : Listing} (hdecode : ((body.decode catalog).run respond state).1 = .ok listing)
    {instruction : Instruction} (hmem : instruction ∈ listing.toList) :
    catalog.Lists instruction.opcode := by
  rcases exists_transcribes_of_run hcatalog hdecode with
    ⟨hlength, statements, operands, htranscribes, rfl⟩
  rcases Listing.exists_get?_of_mem_toList hmem with ⟨index, hget⟩
  rcases htranscribes.exists_renders hcatalog hlength hget with
    ⟨statement, hstatement, hrenders⟩
  rw [hrenders.opcode_eq]
  exact (htranscribes.legal statement (List.mem_of_getElem? hstatement)).lists

theorem newline_notMem_name_of_result {body : MethodBody} {resolver : Resolver}
    {listing : Listing} (hresult : (body.decode .standard).result resolver = .ok listing)
    {instruction : Instruction} (hmem : instruction ∈ listing.toList) :
    '\n' ∉ instruction.opcode.name.toList := by
  have hcoherent := Catalog.coherent_ofDefinitions Catalog.ofDefinitions_standardSet
  have hlists := lists_of_run hcoherent hresult hmem
  exact Catalog.notMem_name_of_lists hlists (by decide) (by decide)

/-- The text of a decoded listing says its instructions in order, each with a line end behind
it and the label and the name of the opcode in front. The line ends are as many as the
instructions exactly when nothing that an operand takes from outside has one: the text of a
string, the name of a member, and the names and types of variables and parameters. -/
theorem lineByLine_iff_of_result (body : MethodBody) (resolver : Resolver)
    {listing : Listing} (hresult : (body.decode .standard).result resolver = .ok listing) :
    listing.text.toList =
        listing.toList.flatMap (fun instruction => instruction.text.toList ++ ['\n']) ∧
      (forall instruction, instruction ∈ listing.toList ->
        instruction.head.toList <+: instruction.text.toList) ∧
      (listing.LineByLine <->
        forall instruction, instruction ∈ listing.toList ->
          forall word, word ∈ instruction.operand.words -> '\n' ∉ word.toList) := by
  refine ⟨?_, fun instruction _ => instruction.head_isPrefix_text, ?_⟩
  · rw [Listing.toList_text, List.flatMap_map]
  · exact Listing.lineByLine_iff fun _ hmem => newline_notMem_name_of_result hresult hmem

theorem lineByLine_iff_of_result_loopBody :
    exists listing : Listing,
      (Sample.loopBody.decode .standard).result Sample.metadata.resolve = .ok listing ∧
        listing.LineByLine := by
  have hwords : (((Sample.loopBody.decode .standard).result
      Sample.metadata.resolve).toOption.any fun listing =>
        listing.toList.all fun instruction =>
          instruction.operand.words.all fun word => decide ('\n' ∉ word.toList)) = true := by
    decide +kernel
  rcases Listing.exists_of_all hwords with ⟨listing, hresult, hall⟩
  refine ⟨listing, hresult, ?_⟩
  apply (lineByLine_iff_of_result Sample.loopBody Sample.metadata.resolve hresult).2.2.mpr
  intro instruction hmem word hword
  exact of_decide_eq_true (List.all_eq_true.mp (hall instruction hmem) word hword)

def stringBody : MethodBody :=
  MethodBody.ofCode [0x72, 0x01, 0x00, 0x00, 0x70]

def twoLineMetadata : Metadata :=
  Metadata.empty.addString Sample.labelToken "a\nb"

def twoLineListing : Listing :=
  .ofDrafts [{ offset := 0, opcode := .ldstr, operand := .string "a\nb" }]

/-- A string with two lines is printed on two lines. -/
theorem not_lineByLine_twoLineListing :
    (stringBody.decode .standard).result twoLineMetadata.resolve = .ok twoLineListing ∧
      twoLineListing.length = 1 ∧
      twoLineListing.text = "IL_0000: ldstr \"a\nb\"\n" ∧
      ¬ twoLineListing.LineByLine := by
  have hresult : (stringBody.decode .standard).result twoLineMetadata.resolve =
      .ok twoLineListing := by
    decide +kernel
  have htext : twoLineListing.text = "IL_0000: ldstr \"a\nb\"\n" ∧
      twoLineListing.toList.any (fun instruction =>
        instruction.operand.words.any fun word => decide ('\n' ∈ word.toList)) = true := by
    decide +kernel
  refine ⟨hresult, rfl, htext.1, ?_⟩
  intro hlines
  have hwords := (Listing.lineByLine_iff fun _ hmem =>
    newline_notMem_name_of_result hresult hmem).mp hlines
  rcases List.any_eq_true.mp htext.2 with ⟨instruction, hmem, hany⟩
  rcases List.any_eq_true.mp hany with ⟨word, hword, hnewline⟩
  exact hwords instruction hmem word hword (of_decide_eq_true hnewline)

end MethodBody

end CilDisasm
