import CilDisasm.Proofs.Decoding.Transcription

/-!
# Layout of decoded listings

The instructions of a decoded listing lie one behind the other, without gaps, from the first
byte of the method body to the last. Sizes are computed from opcodes and operands, not from
the bytes that were read, so this ties two descriptions of the format to each other.
-/

namespace CilDisasm
namespace Listing

/-- The instructions of a listing fill a method body of some length. -/
structure Tiles (listing : Listing) (length : Nat) : Prop where
  isEmpty_iff : listing.isEmpty = true <-> length = 0
  first : forall instruction, listing.first? = some instruction -> instruction.offset = 0
  next : forall index instruction following,
    listing.get? index = some instruction ->
    listing.get? (index + 1) = some following ->
    following.offset = instruction.offset + instruction.size
  ascending : listing.Ascending
  last : forall instruction, listing.last? = some instruction ->
    instruction.offset + instruction.size = length
  byteLength_eq : listing.byteLength = length

theorem byteLength_eq_foldl (listing : Listing) :
    listing.byteLength = (listing.toList.map Instruction.size).foldl Nat.add 0 := by
  rw [byteLength, ← Array.foldl_toList, List.foldl_map]
  rfl

theorem foldl_add_length_bytes (start : Nat) (statements : List Statement) :
    (statements.map (fun statement => statement.bytes.length)).foldl Nat.add start =
      start + (Statement.codeOf statements).length := by
  induction statements generalizing start with
  | nil => rfl
  | cons statement rest ih =>
      rw [List.map_cons, List.foldl_cons, ih, Statement.codeOf_cons, List.length_append]
      exact Nat.add_assoc _ _ _

theorem last?_eq_get? (listing : Listing) :
    listing.last? = listing.get? (listing.length - 1) :=
  Array.back?_eq_getElem?

theorem toList_map_size {listing : Listing} {statements : List Statement}
    (hlength : listing.length = statements.length)
    (hsize : forall index instruction, listing.get? index = some instruction ->
      exists statement : Statement,
        statements[index]? = some statement ∧
          instruction.size = statement.bytes.length) :
    listing.toList.map Instruction.size =
      statements.map (fun statement => statement.bytes.length) := by
  apply List.ext_getElem?
  intro index
  rw [List.getElem?_map, List.getElem?_map, getElem?_toList]
  cases hget : listing.get? index with
  | none =>
      have hle : statements.length ≤ index := by
        rw [← hlength]
        exact get?_eq_none_iff.mp hget
      rw [List.getElem?_eq_none hle]
      rfl
  | some instruction =>
      rcases hsize index instruction hget with ⟨statement, hstatement, hlengths⟩
      rw [hstatement]
      exact congrArg some hlengths

end Listing

namespace MethodBody

open Statement (offsetAt)

variable {body : MethodBody} {oracle : Oracle} {catalog : Catalog}

theorem Transcribes.tiles (hcatalog : catalog.Coherent) {statements : List Statement}
    {operands : List Operand}
    (h : body.Transcribes oracle catalog statements operands)
    (hlimit : body.code.length < codeLengthLimit) :
    (Listing.compose statements operands).resolveTargets.Tiles body.code.length := by
  have hlength : (Listing.compose statements operands).resolveTargets.length =
      statements.length := by
    rw [Listing.length_resolveTargets, h.length_compose]
  have hcode : offsetAt statements statements.length = body.code.length := by
    rw [Statement.offsetAt_length, h.codeOf_eq]
  constructor
  · apply Array.isEmpty_iff_size_eq_zero.trans
    show Listing.length _ = 0 <-> _
    rw [hlength, List.length_eq_zero_iff, List.length_eq_zero_iff, ← h.codeOf_eq]
    exact Statement.codeOf_eq_nil_iff.symm
  · intro instruction hfirst
    rcases h.exists_renders hcatalog hlimit hfirst with ⟨_, -, hrenders⟩
    exact hrenders.offset_eq
  · intro index instruction following hget hnext
    rcases h.exists_renders hcatalog hlimit hget with ⟨statement, hstatement, hrenders⟩
    rcases h.exists_renders hcatalog hlimit hnext with ⟨_, -, hfollowing⟩
    rw [hfollowing.offset_eq, hrenders.offset_eq, hrenders.size_eq]
    exact Statement.offsetAt_succ hstatement
  · intro first second left right hlt hfirst hsecond
    rcases h.exists_renders hcatalog hlimit hfirst with ⟨_, hstatement, hleft⟩
    rcases h.exists_renders hcatalog hlimit hsecond with ⟨_, -, hright⟩
    rw [hleft.offset_eq, hright.offset_eq]
    exact Statement.offsetAt_lt hstatement hlt
  · intro instruction hlast
    rw [Listing.last?_eq_get?, hlength] at hlast
    rcases h.exists_renders hcatalog hlimit hlast with ⟨statement, hstatement, hrenders⟩
    rcases List.getElem?_eq_some_iff.mp hstatement with ⟨hindex, -⟩
    have hend : statements.length - 1 + 1 = statements.length := by
      omega
    rw [hrenders.offset_eq, hrenders.size_eq, ← Statement.offsetAt_succ hstatement, hend,
      hcode]
  · rw [Listing.byteLength_eq_foldl, Listing.toList_map_size hlength,
      Listing.foldl_add_length_bytes, Nat.zero_add, h.codeOf_eq]
    intro index instruction hget
    rcases h.exists_renders hcatalog hlimit hget with ⟨statement, hstatement, hrenders⟩
    exact ⟨statement, hstatement, hrenders.size_eq⟩

/-- Whatever the replies to its queries are, a decoding that succeeds gives a listing that
fills the method body. -/
theorem tiles_of_decode {definitions : List Opcode} {σ : Type}
    (hcatalog : Catalog.ofDefinitions definitions = .ok catalog) (body : MethodBody)
    (respond : Program.Responder dialogueInterface σ) (state : σ) {listing : Listing}
    (hdecode : ((body.decode catalog).run respond state).1 = .ok listing) :
    listing.Tiles body.code.length := by
  have hcoherent := Catalog.coherent_ofDefinitions hcatalog
  rcases exists_transcribes_of_run hcoherent hdecode with
    ⟨hlimit, statements, operands, htranscribes, rfl⟩
  exact htranscribes.tiles hcoherent hlimit

theorem tiles_of_decode_loopBody :
    exists listing : Listing,
      ((Sample.loopBody.decode .standard).run Sample.metadata.resolve.respondOnly ()).1 =
        .ok listing ∧ listing.Tiles Sample.loopBody.code.length := by
  rcases exists_result_loopBody with ⟨listing, -, hdecode, -⟩
  rw [Dialogue.result] at hdecode
  have htiles := tiles_of_decode Catalog.ofDefinitions_standardSet Sample.loopBody
    Sample.metadata.resolve.respondOnly () hdecode
  exact ⟨listing, hdecode, htiles⟩

end MethodBody

end CilDisasm
