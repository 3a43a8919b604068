import CilDisasm.Sample
import CilDisasm.Proofs.Decoding.Denotation
import CilDisasm.Proofs.Decoding.Partition

/-!
# Transcriptions

A transcription of a method body lists its statements and, for each of them, the operand
that its payload denotes. Decoding succeeds exactly when there is one, and what it returns
is the listing that the statements and operands make up, with targets resolved. All that is
known about a decoded listing follows from this.
-/

namespace CilDisasm

open Statement (codeOf layOut offsetAt)

def Listing.compose (statements : List Statement) (operands : List Operand) : Listing :=
  ofDrafts (List.zipWith Segment.draft (layOut 0 statements) operands)

namespace MethodBody

structure Transcribes (body : MethodBody) (oracle : Oracle) (catalog : Catalog)
    (statements : List Statement) (operands : List Operand) : Prop where
  codeOf_eq : codeOf statements = body.code
  legal : forall statement, statement ∈ statements -> statement.Legal catalog
  length_eq : operands.length = statements.length
  denotes : forall {index : Nat} {statement : Statement} {operand : Operand},
    statements[index]? = some statement ->
    operands[index]? = some operand ->
    statement.payload.Denotes oracle body (offsetAt statements (index + 1)) operand

variable {body : MethodBody} {oracle : Oracle} {catalog : Catalog}

theorem forall₂_denotes_layOut_iff {statements : List Statement}
    {operands : List Operand} :
    List.Forall₂ (fun segment operand =>
        segment.payload.Denotes oracle body segment.limit operand)
      (layOut 0 statements) operands <->
      operands.length = statements.length ∧
        forall {index : Nat} {statement : Statement} {operand : Operand},
          statements[index]? = some statement ->
          operands[index]? = some operand ->
          statement.payload.Denotes oracle body (offsetAt statements (index + 1))
            operand := by
  have hlength : (layOut 0 statements).length = statements.length := by
    rw [← List.length_map Segment.statement, Statement.map_statement_layOut]
  have hplaced : forall {index : Nat} {statement : Statement},
      statements[index]? = some statement ->
      (layOut 0 statements)[index]? =
        some (statement.placed (offsetAt statements index)) := by
    intro index statement hstatement
    rw [Statement.getElem?_layOut, hstatement, Nat.zero_add]
    rfl
  rw [List.forall₂_iff_get]
  constructor
  · intro h
    rcases h with ⟨hlengths, hdenotes⟩
    refine ⟨hlengths.symm.trans hlength, ?_⟩
    intro index statement operand hstatement hoperand
    rcases List.getElem?_eq_some_iff.mp (hplaced hstatement) with ⟨hsegment, hget⟩
    rcases List.getElem?_eq_some_iff.mp hoperand with ⟨hindex, hgetOperand⟩
    have hdenotesIndex := hdenotes index hsegment hindex
    rw [List.get_eq_getElem, List.get_eq_getElem, hget, hgetOperand] at hdenotesIndex
    rw [Statement.offsetAt_succ hstatement]
    exact hdenotesIndex
  · intro h
    rcases h with ⟨hlengths, hdenotes⟩
    refine ⟨hlength.trans hlengths.symm, ?_⟩
    intro index hsegment hindex
    have hlt : index < statements.length := by
      rw [← hlength]
      exact hsegment
    have hstatement : statements[index]? = some statements[index] :=
      List.getElem?_eq_getElem hlt
    have hoperand : operands[index]? = some operands[index] :=
      List.getElem?_eq_getElem hindex
    rcases List.getElem?_eq_some_iff.mp (hplaced hstatement) with ⟨_, hget⟩
    have hdenotesIndex := hdenotes hstatement hoperand
    rw [Statement.offsetAt_succ hstatement] at hdenotesIndex
    rw [List.get_eq_getElem, List.get_eq_getElem, hget]
    exact hdenotesIndex

/-- Decoding returns a listing exactly when the method body can be transcribed. -/
theorem returns_decode_ok_iff (hcatalog : catalog.Coherent) {listing : Listing} :
    Dialogue.Returns oracle (body.decode catalog) (.ok listing) <->
      body.code.length < codeLengthLimit ∧
        exists statements : List Statement, exists operands : List Operand,
          body.Transcribes oracle catalog statements operands ∧
            listing = (Listing.compose statements operands).resolveTargets := by
  unfold decode
  by_cases hlength : codeLengthLimit ≤ body.code.length
  · rw [if_pos hlength]
    constructor
    · intro h
      have herror := Program.returns_done_iff.mp h
      cases herror
    · intro h
      exact absurd h.1 (Nat.not_lt.mpr hlength)
  · rw [if_neg hlength]
    constructor
    · intro h
      rcases Program.returns_bind_iff.mp h with ⟨outcome, hextend, hrest⟩
      cases outcome with
      | error error =>
          have herror := Program.returns_done_iff.mp hrest
          cases herror
      | ok composed =>
          cases hfault : (Cut.ofCode catalog body.code).fault with
          | some fault =>
              simp only [hfault] at hrest
              have herror := Program.returns_done_iff.mp hrest
              cases herror
          | none =>
              simp only [hfault] at hrest
              have hsettled := Listing.returns_settle_bind_iff.mp hrest
              have hlisting := Except.ok.inj (Program.returns_done_iff.mp hsettled)
              rcases Cut.exists_statements_of_fault_eq_none hcatalog hfault with
                ⟨statements, hlegal, hcode, hsegments⟩
              rw [hsegments, List.toList_toArray] at hextend
              rcases Listing.returns_extend_ok_iff.mp hextend with
                ⟨operands, hforall, hcomposed⟩
              rcases forall₂_denotes_layOut_iff.mp hforall with ⟨hlengths, hdenotes⟩
              refine ⟨Nat.lt_of_not_le hlength, statements, operands, ?_, ?_⟩
              · exact ⟨hcode, hlegal, hlengths, hdenotes⟩
              · rw [hlisting, hcomposed]
                rfl
    · intro h
      rcases h with ⟨-, statements, operands, htranscribes, rfl⟩
      have hcut := Cut.ofCode_codeOf hcatalog htranscribes.legal
      rw [htranscribes.codeOf_eq] at hcut
      rw [hcut]
      refine Program.returns_bind_iff.mpr
        ⟨.ok (Listing.compose statements operands), ?_, ?_⟩
      · rw [List.toList_toArray]
        apply Listing.returns_extend_ok_iff.mpr
        refine ⟨operands, ?_, rfl⟩
        exact forall₂_denotes_layOut_iff.mpr
          ⟨htranscribes.length_eq, htranscribes.denotes⟩
      · apply Listing.returns_settle_bind_iff.mpr
        exact Program.Returns.done _

theorem exists_transcribes_of_run (hcatalog : catalog.Coherent) {σ : Type}
    {respond : Program.Responder dialogueInterface σ} {state : σ} {listing : Listing}
    (hdecode : ((body.decode catalog).run respond state).1 = .ok listing) :
    body.code.length < codeLengthLimit ∧
      exists statements : List Statement, exists operands : List Operand,
        body.Transcribes (.ofResponder respond) catalog statements operands ∧
          listing = (Listing.compose statements operands).resolveTargets := by
  have hreturns := Dialogue.returns_run respond (body.decode catalog) state
  rw [hdecode] at hreturns
  exact (returns_decode_ok_iff hcatalog).mp hreturns

theorem ok_of_returns_decode (hcatalog : catalog.Coherent) {statements : List Statement}
    (hcode : codeOf statements = body.code) (hlength : body.code.length < codeLengthLimit)
    (hlegal : forall statement, statement ∈ statements -> statement.Legal catalog)
    (hresolves : forall statement, statement ∈ statements ->
      statement.payload.Resolves oracle body)
    {outcome : Except DecodeError Listing}
    (h : Dialogue.Returns oracle (body.decode catalog) outcome) :
    exists listing : Listing, outcome = .ok listing := by
  unfold decode at h
  rw [if_neg (Nat.not_le.mpr hlength), ← hcode, Cut.ofCode_codeOf hcatalog hlegal] at h
  rcases Program.returns_bind_iff.mp h with ⟨composed, hextend, hrest⟩
  have hsegments : forall segment,
      segment ∈ ((layOut 0 statements).toArray).toList ->
      segment.payload.Resolves oracle body := by
    intro segment hsegment
    have hmem : segment.statement ∈ statements := by
      rw [← Statement.map_statement_layOut 0 statements]
      exact List.mem_map_of_mem hsegment
    exact hresolves segment.statement hmem
  rcases Listing.ok_of_returns_extend hsegments hextend with ⟨result, rfl⟩
  have hsettled := Listing.returns_settle_bind_iff.mp hrest
  exact ⟨result.resolveTargets, Program.returns_done_iff.mp hsettled⟩

/-!
# Instructions of a transcription

The instruction at a position is made from the statement and the operand there. Its offset
is the length of the code in front of it, and its size the length of its own.
-/

namespace Transcribes

variable {statements : List Statement} {operands : List Operand}

theorem length_compose (h : body.Transcribes oracle catalog statements operands) :
    (Listing.compose statements operands).length = statements.length := by
  have hlayOut : (layOut 0 statements).length = statements.length := by
    rw [← List.length_map Segment.statement, Statement.map_statement_layOut]
  rw [Listing.compose, Listing.length_ofDrafts, List.length_zipWith, hlayOut, h.length_eq,
    Nat.min_self]

theorem get?_compose_eq_some_iff (h : body.Transcribes oracle catalog statements operands)
    {index : Nat} {instruction : Instruction} :
    (Listing.compose statements operands).get? index = some instruction <->
      exists statement : Statement, exists operand : Operand,
        statements[index]? = some statement ∧ operands[index]? = some operand ∧
          instruction =
            ((statement.placed (offsetAt statements index)).draft operand).instruction
              statements.length index := by
  have hlength := h.length_compose
  rw [Listing.compose, Listing.length_ofDrafts] at hlength
  rw [Listing.compose, Listing.get?_ofDrafts, hlength, Option.map_eq_some_iff]
  constructor
  · intro hget
    rcases hget with ⟨draft, hdraft, rfl⟩
    rcases List.getElem?_zipWith_eq_some.mp hdraft with
      ⟨segment, operand, hsegment, hoperand, rfl⟩
    rw [Statement.getElem?_layOut, Nat.zero_add] at hsegment
    rcases Option.map_eq_some_iff.mp hsegment with ⟨statement, hstatement, rfl⟩
    exact ⟨statement, operand, hstatement, hoperand, rfl⟩
  · intro hget
    rcases hget with ⟨statement, operand, hstatement, hoperand, rfl⟩
    refine ⟨_, ?_, rfl⟩
    apply List.getElem?_zipWith_eq_some.mpr
    refine ⟨_, operand, ?_, hoperand, rfl⟩
    rw [Statement.getElem?_layOut, hstatement, Nat.zero_add]
    rfl

theorem ascending_compose (h : body.Transcribes oracle catalog statements operands) :
    (Listing.compose statements operands).Ascending := by
  intro first second left right hlt hfirst hsecond
  rcases h.get?_compose_eq_some_iff.mp hfirst with ⟨_, _, hstatement, -, rfl⟩
  rcases h.get?_compose_eq_some_iff.mp hsecond with ⟨_, _, -, -, rfl⟩
  exact Statement.offsetAt_lt hstatement hlt

theorem indexed_compose (h : body.Transcribes oracle catalog statements operands) :
    (Listing.compose statements operands).Indexed := by
  intro index instruction hget
  rcases h.get?_compose_eq_some_iff.mp hget with ⟨_, _, -, -, rfl⟩
  rfl

theorem offset_lt_of_get?_compose
    (h : body.Transcribes oracle catalog statements operands) {index : Nat}
    {instruction : Instruction}
    (hget : (Listing.compose statements operands).get? index = some instruction) :
    instruction.offset < body.code.length := by
  rcases h.get?_compose_eq_some_iff.mp hget with ⟨statement, operand, hstatement, -, rfl⟩
  rcases List.getElem?_eq_some_iff.mp hstatement with ⟨hindex, -⟩
  have hlt := Statement.offsetAt_lt hstatement hindex
  rw [Statement.offsetAt_length, h.codeOf_eq] at hlt
  exact hlt

/-- What decoding makes of the statement at some position. -/
structure Renders (listing : Listing) (statements : List Statement)
    (operands : List Operand) (index : Nat) (statement : Statement)
    (instruction : Instruction) : Prop where
  offset_eq : instruction.offset = offsetAt statements index
  opcode_eq : instruction.opcode = statement.opcode
  size_eq : instruction.size = statement.bytes.length
  links : exists operand : Operand,
    operands[index]? = some operand ∧ listing.Links operand instruction.operand

theorem Renders.exists_denotes {listing : Listing} {index : Nat} {statement : Statement}
    {instruction : Instruction}
    (hrenders : Renders listing statements operands index statement instruction)
    (h : body.Transcribes oracle catalog statements operands)
    (hstatement : statements[index]? = some statement) :
    statement.payload.Suits instruction.opcode ∧
      exists operand : Operand,
        statement.payload.Denotes oracle body (instruction.offset + instruction.size)
            operand ∧
          listing.Links operand instruction.operand := by
  rcases hrenders.links with ⟨operand, hoperand, hlinks⟩
  have hsuits := (h.legal statement (List.mem_of_getElem? hstatement)).suits
  have hdenotes := h.denotes hstatement hoperand
  rw [Statement.offsetAt_succ hstatement, ← hrenders.offset_eq, ← hrenders.size_eq]
    at hdenotes
  rw [← hrenders.opcode_eq] at hsuits
  exact ⟨hsuits, operand, hdenotes, hlinks⟩

theorem lands_compose (h : body.Transcribes oracle catalog statements operands)
    (hlength : body.code.length < codeLengthLimit) (place : Int) :
    (Listing.compose statements operands).resolveTargets.Lands place
      ((Listing.compose statements operands).resolveTarget (.unresolved place)) := by
  apply Listing.lands_resolveTarget h.ascending_compose h.indexed_compose
  intro index instruction hget
  exact Nat.lt_trans (h.offset_lt_of_get?_compose hget) hlength

theorem exists_renders (hcatalog : catalog.Coherent)
    (h : body.Transcribes oracle catalog statements operands)
    (hlength : body.code.length < codeLengthLimit) {index : Nat}
    {instruction : Instruction}
    (hget : (Listing.compose statements operands).resolveTargets.get? index =
      some instruction) :
    exists statement : Statement,
      statements[index]? = some statement ∧
        Renders (Listing.compose statements operands).resolveTargets statements operands
          index statement instruction := by
  rw [Listing.get?_resolveTargets] at hget
  rcases Option.map_eq_some_iff.mp hget with ⟨former, hformer, rfl⟩
  rcases h.get?_compose_eq_some_iff.mp hformer with
    ⟨statement, operand, hstatement, hoperand, rfl⟩
  have hlegal := h.legal statement (List.mem_of_getElem? hstatement)
  have hdenotes := h.denotes hstatement hoperand
  refine ⟨statement, hstatement, ?_⟩
  constructor
  · rw [Instruction.offset_mapTargets]
    rfl
  · rw [Instruction.opcode_mapTargets]
    rfl
  · rcases hlegal.lists with ⟨code, hlookup⟩
    have hcode := hcatalog code statement.opcode hlookup
    rw [Instruction.size_mapTargets, Instruction.size,
      Payload.operandSize_of_denotes hlegal.suits hdenotes, Statement.bytes,
      List.length_append, Opcode.length_bytes_of_code? hcode]
    rfl
  · refine ⟨operand, hoperand, ?_⟩
    have hlinks : (Listing.compose statements operands).resolveTargets.Links operand
        (operand.mapTargets (Listing.compose statements operands).resolveTarget) := by
      apply Listing.links_mapTargets
      intro target htarget
      rcases Payload.exists_place_of_denotes hdenotes htarget with ⟨place, rfl⟩
      exact h.lands_compose hlength place
    rw [Instruction.operand_mapTargets]
    split
    · exact hlinks
    · next hbranch =>
        have hpayload : statement.payload.isBranch = false := by
          rw [Payload.isBranch_of_suits hlegal.suits]
          exact Bool.of_not_eq_true hbranch
        have htargets := Payload.targets_eq_nil_of_denotes hdenotes hpayload
        rw [Operand.mapTargets_of_targets_eq_nil htargets] at hlinks
        exact hlinks

theorem exists_instruction (hcatalog : catalog.Coherent)
    (h : body.Transcribes oracle catalog statements operands)
    (hlength : body.code.length < codeLengthLimit) {index : Nat}
    {statement : Statement} (hstatement : statements[index]? = some statement) :
    exists instruction : Instruction,
      (Listing.compose statements operands).resolveTargets.get? index = some instruction ∧
        Renders (Listing.compose statements operands).resolveTargets statements operands
          index statement instruction := by
  rcases List.getElem?_eq_some_iff.mp hstatement with ⟨hindex, -⟩
  cases hget : (Listing.compose statements operands).resolveTargets.get? index with
  | none =>
      have hle := Listing.get?_eq_none_iff.mp hget
      rw [Listing.length_resolveTargets, h.length_compose] at hle
      exact absurd hindex (Nat.not_lt.mpr hle)
  | some instruction =>
      rcases h.exists_renders hcatalog hlength hget with ⟨other, hother, hrenders⟩
      have hsame := Option.some.inj (hstatement.symm.trans hother)
      rw [hsame]
      exact ⟨instruction, rfl, hrenders⟩

end Transcribes

/-!
# The sample loop
-/

theorem exists_result_loopBody :
    exists listing : Listing, exists instruction : Instruction,
      (Sample.loopBody.decode .standard).result Sample.metadata.resolve = .ok listing ∧
        listing.get? 4 = some instruction ∧
        instruction.opcode.format.isBranch = true := by
  have hbranches :
      ((((Sample.loopBody.decode .standard).result
        Sample.metadata.resolve).toOption.bind (fun listing => listing.get? 4)).any
          (fun instruction => instruction.opcode.format.isBranch)) = true := by
    decide +kernel
  cases hresult : (Sample.loopBody.decode .standard).result Sample.metadata.resolve with
  | error error =>
      rw [hresult] at hbranches
      cases hbranches
  | ok listing =>
      rw [hresult] at hbranches
      rcases (Option.any_eq_true _ _).mp hbranches with ⟨instruction, hget, hbranch⟩
      exact ⟨listing, instruction, rfl, hget, hbranch⟩

end MethodBody

end CilDisasm
