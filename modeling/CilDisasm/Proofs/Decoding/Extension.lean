import CilDisasm.Proofs.Decoding.Transcription
import CilDisasm.Proofs.Metadata.Extension

/-!
# Decoding with more at hand

Decoding consults a catalog, the symbols of a metadata table, and the variables, parameters
and generic arguments of the method body. More of any of these can only turn a failure into
a success: what was decoded before is decoded again, to the same listing.
-/

namespace CilDisasm

/-- The catalog has all entries of the other one. -/
def Catalog.Extends (larger smaller : Catalog) : Prop :=
  forall opcode : Opcode, smaller.Lists opcode -> larger.Lists opcode

theorem Catalog.extends_of_mem {definitions others : List Opcode}
    {smaller larger : Catalog} (hsmaller : ofDefinitions definitions = .ok smaller)
    (hlarger : ofDefinitions others = .ok larger)
    (h : forall opcode, smaller.Lists opcode -> opcode ∈ others) :
    larger.Extends smaller := by
  intro opcode hlists
  have hpublic := (lists_ofDefinitions_iff hsmaller).mp hlists
  exact (lists_ofDefinitions_iff hlarger).mpr ⟨⟨h opcode hlists, hpublic.1.2⟩, hpublic.2⟩

namespace MethodBody

/-- The same code with more to refer to. -/
structure Extends (larger smaller : MethodBody) : Prop where
  code_eq : larger.code = smaller.code
  hasReceiver_eq : larger.hasReceiver = smaller.hasReceiver
  locals : smaller.locals <+: larger.locals
  parameters : smaller.parameters <+: larger.parameters
  context : GenericContext.ExtendsOptional larger.context smaller.context

theorem Extends.arguments {larger smaller : MethodBody} (h : larger.Extends smaller) :
    smaller.arguments <+: larger.arguments := by
  unfold MethodBody.arguments
  rw [h.hasReceiver_eq]
  rcases h.parameters with ⟨rest, hrest⟩
  rw [← hrest, List.map_append]
  split
  · exact List.prefix_append (Argument.receiver :: _) _
  · exact List.prefix_append _ _

end MethodBody

variable {larger smaller : MethodBody} {metadata extended : Metadata}

theorem Payload.Denotes.of_extends (hbody : larger.Extends smaller)
    (hmetadata : extended.Extends metadata) {payload : Payload} {limit : Nat}
    {operand : Operand}
    (h : payload.Denotes (.ofResolver metadata.resolve) smaller limit operand) :
    payload.Denotes (.ofResolver extended.resolve) larger limit operand := by
  cases payload with
  | string token =>
      rcases h with ⟨text, htext, rfl⟩
      exact ⟨text, hmetadata.resolve_string htext, rfl⟩
  | member token =>
      rcases h with ⟨member, hmember, rfl⟩
      exact ⟨member, hmetadata.resolve_member hbody.context hmember, rfl⟩
  | signature token =>
      rcases h with ⟨signature, hsignature, rfl⟩
      exact ⟨signature, hmetadata.resolve_signature hsignature, rfl⟩
  | shortLocalSlot index | localSlot index =>
      rcases h with ⟨slot, hslot, rfl⟩
      exact ⟨slot, getElem?_eq_some_of_isPrefix hbody.locals hslot, rfl⟩
  | shortArgumentSlot index | argumentSlot index =>
      rcases h with ⟨argument, hargument, rfl⟩
      exact ⟨argument, getElem?_eq_some_of_isPrefix hbody.arguments hargument, rfl⟩
  | _ => exact h

namespace MethodBody

theorem Transcribes.of_extends (hbody : larger.Extends smaller)
    (hmetadata : extended.Extends metadata) {catalog wider : Catalog}
    (hcatalog : wider.Extends catalog) {statements : List Statement}
    {operands : List Operand}
    (h : smaller.Transcribes (.ofResolver metadata.resolve) catalog statements operands) :
    larger.Transcribes (.ofResolver extended.resolve) wider statements operands where
  codeOf_eq := h.codeOf_eq.trans hbody.code_eq.symm
  legal statement hstatement :=
    { h.legal statement hstatement with
      lists := hcatalog statement.opcode (h.legal statement hstatement).lists }
  length_eq := h.length_eq
  denotes hstatement hoperand := (h.denotes hstatement hoperand).of_extends hbody hmetadata

/-- What decodes still does, and to the same listing, when the catalog, the metadata and the
descriptions of the method body hold more than before. -/
theorem result_decode_of_extends {definitions others : List Opcode} {catalog wider : Catalog}
    (hcatalog : Catalog.ofDefinitions definitions = .ok catalog)
    (hwider : Catalog.ofDefinitions others = .ok wider)
    (hentries : forall opcode, catalog.Lists opcode -> opcode ∈ others)
    (hmetadata : extended.Extends metadata) (hbody : larger.Extends smaller)
    {listing : Listing}
    (hdecode : (smaller.decode catalog).result metadata.resolve = .ok listing) :
    (larger.decode wider).result extended.resolve = .ok listing := by
  rw [Dialogue.result_eq_iff_returns,
    returns_decode_ok_iff (Catalog.coherent_ofDefinitions hcatalog)] at hdecode
  rcases hdecode with ⟨hlength, statements, operands, htranscribes, hlisting⟩
  rw [Dialogue.result_eq_iff_returns,
    returns_decode_ok_iff (Catalog.coherent_ofDefinitions hwider), hbody.code_eq]
  have hextends := Catalog.extends_of_mem hcatalog hwider hentries
  exact ⟨hlength, statements, operands, htranscribes.of_extends hbody hmetadata hextends,
    hlisting⟩

def genericBody : MethodBody :=
  { code :=
      (Assembler.empty.opcode .ldstr |>.token Sample.labelToken
        |>.opcode .call |>.token ⟨0x1B000001⟩
        |>.opcode .ldlocS |>.word (0 : UInt8)
        |>.opcode .ret).finish.1
    locals := [{ index := 0, typeName := "System.Int32", pinned := false }]
    parameters := []
    hasReceiver := true
    context := some { typeArguments := ["System.String"], methodArguments := [] } }

def widerBody : MethodBody :=
  { genericBody with
    locals := genericBody.locals ++ [{ index := 1, typeName := "System.Byte", pinned := true }]
    parameters := [Sample.timeParameter]
    context :=
      some
        { typeArguments := ["System.String", "System.Int32"]
          methodArguments := ["System.Byte"] } }

def genericMetadata : Metadata :=
  Sample.metadata.addMember ⟨0x1B000001⟩ { kind := .type, name := "Box<!0>" }

theorem result_decode_of_extends_generic :
    exists wider : Catalog, exists listing : Listing,
      Catalog.ofDefinitions
          (Opcode.standardSet ++ [.ofValue "spare" 0x24 .none .primitive]) = .ok wider ∧
        (genericBody.decode .standard).result genericMetadata.resolve = .ok listing ∧
        (widerBody.decode wider).result
          (genericMetadata.addString Sample.sleepToken "Wait").resolve = .ok listing := by
  have hbuilt : (Catalog.ofDefinitions
      (Opcode.standardSet ++ [.ofValue "spare" 0x24 .none .primitive])).isOk = true := by
    decide +kernel
  have hdecoded : ((genericBody.decode .standard).result genericMetadata.resolve
      |>.toOption.any fun listing => listing.toList.all fun _ => true) = true := by
    decide +kernel
  have hentries : forall opcode, Catalog.standard.Lists opcode ->
      opcode ∈ Opcode.standardSet ++ [.ofValue "spare" 0x24 .none .primitive] := by
    intro opcode hlists
    have hpublic := (Catalog.lists_ofDefinitions_iff Catalog.ofDefinitions_standardSet).mp hlists
    exact List.mem_append_left _ hpublic.1.1
  have hmetadata : (genericMetadata.addString Sample.sleepToken "Wait").Extends
      genericMetadata :=
    Metadata.extends_addString (by decide +kernel) "Wait"
  have hbody : widerBody.Extends genericBody := by
    refine ⟨rfl, rfl, List.prefix_append _ _, List.nil_prefix, ?_⟩
    intro context hcontext
    cases hcontext
    exact ⟨_, rfl, ⟨["System.Int32"], rfl⟩, List.nil_prefix⟩
  cases hwider : Catalog.ofDefinitions
      (Opcode.standardSet ++ [.ofValue "spare" 0x24 .none .primitive]) with
  | error error =>
      rw [hwider] at hbuilt
      cases hbuilt
  | ok wider =>
      rcases Listing.exists_of_all hdecoded with ⟨listing, hlisting, -⟩
      exact ⟨wider, listing, rfl, hlisting, result_decode_of_extends
        Catalog.ofDefinitions_standardSet hwider hentries hmetadata hbody hlisting⟩

end MethodBody

end CilDisasm
