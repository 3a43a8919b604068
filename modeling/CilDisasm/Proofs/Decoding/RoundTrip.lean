import CilDisasm.Proofs.Decoding.Transcription

/-!
# Decoding what was assembled

A statement is assembled by writing its opcode and then its payload with the method for the
kind of value it holds. An assembler that was given statements holds their code, and its
position before each of them is the offset of that statement. Decoding therefore gives one
instruction for each statement, whatever the statements are, as long as their tokens and
slots stand for something.
-/

namespace CilDisasm
namespace Assembler

def operand (assembler : Assembler) : Payload -> Assembler
  | .none => assembler
  | .int8 value => assembler.word value
  | .uint8 value => assembler.word value
  | .int32 value => assembler.word value
  | .int64 value => assembler.word value
  | .float32 value => assembler.word value
  | .float64 value => assembler.word value
  | .shortBranch distance => assembler.word distance
  | .branch distance => assembler.word distance
  | .switch distances => assembler.jumpTable distances
  | .string token => assembler.token token
  | .member token => assembler.token token
  | .signature token => assembler.token token
  | .shortLocalSlot index => assembler.word index
  | .localSlot index => assembler.word index
  | .shortArgumentSlot index => assembler.word index
  | .argumentSlot index => assembler.word index

def statement (assembler : Assembler) (statement : Statement) : Assembler :=
  (assembler.opcode statement.opcode).operand statement.payload

def statements (assembler : Assembler) (statements : List Statement) : Assembler :=
  statements.foldl statement assembler

theorem written_operand (assembler : Assembler) (payload : Payload) :
    (assembler.operand payload).written = assembler.written ++ payload.bytes := by
  cases payload with
  | none => exact (List.append_nil _).symm
  | switch distances => exact written_jumpTable assembler distances
  | string token | member token | signature token =>
      exact written_word assembler token.value
  | _ => exact written_word assembler _

theorem written_statement (assembler : Assembler) (statement : Statement) :
    (assembler.statement statement).written = assembler.written ++ statement.bytes := by
  rw [Assembler.statement, written_operand, written_opcode, List.append_assoc,
    Statement.bytes]

theorem written_statements (assembler : Assembler) (statements : List Statement) :
    (assembler.statements statements).written =
      assembler.written ++ Statement.codeOf statements := by
  induction statements generalizing assembler with
  | nil => exact (List.append_nil _).symm
  | cons statement rest ih =>
      show ((assembler.statement statement).statements rest).written = _
      rw [ih, written_statement, List.append_assoc, Statement.codeOf_cons]

theorem finish_statements (statements : List Statement) :
    (empty.statements statements).finish.1 = Statement.codeOf statements := by
  rw [finish_eq, written_statements, written_empty, List.nil_append]

theorem position_statements_take (statements : List Statement) (index : Nat) :
    (empty.statements (statements.take index)).position =
      Statement.offsetAt statements index := by
  rw [position_eq, written_statements, written_empty, List.nil_append, Statement.offsetAt]

end Assembler

/-- A jump table that is written in fewer than `2 ^ 32` bytes has a count of one word. -/
theorem Payload.fits_of_length_bytes_lt {payload : Payload}
    (h : payload.bytes.length < UInt32.size) : payload.Fits := by
  cases payload with
  | switch distances =>
      rw [length_bytes_switch] at h
      show distances.length < UInt32.size
      omega
  | _ => trivial

theorem Statement.length_bytes_le_of_mem {statements : List Statement}
    {statement : Statement} (h : statement ∈ statements) :
    statement.bytes.length ≤ (codeOf statements).length := by
  rcases List.append_of_mem h with ⟨before, after, rfl⟩
  rw [codeOf_append, codeOf_cons, List.length_append, List.length_append]
  exact Nat.le_trans (Nat.le_add_right _ _) (Nat.le_add_left _ _)

namespace MethodBody

open Statement (codeOf offsetAt)

variable {catalog : Catalog}

/-- Whoever replies to its queries, decoding what was assembled from statements gives them
back. -/
theorem decode_assembled {definitions : List Opcode} {σ : Type}
    (hcatalog : Catalog.ofDefinitions definitions = .ok catalog)
    (statements : List Statement)
    (hlists : forall statement, statement ∈ statements -> catalog.Lists statement.opcode)
    (hsuits : forall statement, statement ∈ statements ->
      statement.payload.Suits statement.opcode)
    (body : MethodBody) (hcode : body.code = (Assembler.empty.statements statements).finish.1)
    (hlength : body.code.length < codeLengthLimit)
    (respond : Program.Responder dialogueInterface σ)
    (hresolves : forall statement, statement ∈ statements ->
      statement.payload.Resolves (.ofResponder respond) body)
    (state : σ) :
    exists listing : Listing,
      ((body.decode catalog).run respond state).1 = .ok listing ∧
        listing.length = statements.length ∧
        forall {index : Nat} {statement : Statement},
          statements[index]? = some statement ->
          exists instruction : Instruction, exists operand : Operand,
            listing.get? index = some instruction ∧
              instruction.opcode = statement.opcode ∧
              instruction.offset =
                (Assembler.empty.statements (statements.take index)).position ∧
              statement.payload.Denotes (.ofResponder respond) body
                (Assembler.empty.statements (statements.take (index + 1))).position
                operand ∧
              listing.Links operand instruction.operand := by
  have hcoherent := Catalog.coherent_ofDefinitions hcatalog
  rw [Assembler.finish_statements] at hcode
  have hlegal : forall statement, statement ∈ statements -> statement.Legal catalog := by
    intro statement hstatement
    refine ⟨hlists statement hstatement, hsuits statement hstatement, ?_⟩
    apply Payload.fits_of_length_bytes_lt
    have hle := Statement.length_bytes_le_of_mem hstatement
    rw [← hcode, Statement.bytes, List.length_append] at hle
    have hlimit : body.code.length < UInt32.size := hlength
    omega
  have hreturns := Dialogue.returns_run respond (body.decode catalog) state
  rcases ok_of_returns_decode hcoherent hcode.symm hlength hlegal hresolves hreturns with
    ⟨listing, hdecode⟩
  rcases exists_transcribes_of_run hcoherent hdecode with
    ⟨-, others, operands, htranscribes, rfl⟩
  have hothers : others = statements :=
    Cut.statements_unique hcoherent htranscribes.legal hlegal
      (htranscribes.codeOf_eq.trans hcode)
  subst hothers
  refine ⟨_, hdecode, ?_, ?_⟩
  · rw [Listing.length_resolveTargets, htranscribes.length_compose]
  · intro index statement hstatement
    rcases htranscribes.exists_instruction hcoherent hlength hstatement with
      ⟨instruction, hget, hrenders⟩
    rcases hrenders.links with ⟨operand, hoperand, hlinks⟩
    refine ⟨instruction, operand, hget, hrenders.opcode_eq, ?_, ?_, hlinks⟩
    · rw [Assembler.position_statements_take]
      exact hrenders.offset_eq
    · rw [Assembler.position_statements_take]
      exact htranscribes.denotes hstatement hoperand

def mixedStatements : List Statement :=
  [ { opcode := .ldcI4S, payload := .int8 (-1) },
    { opcode := .switch, payload := .switch [0, -9] },
    { opcode := .ldstr, payload := .string Sample.labelToken },
    { opcode := .ldlocS, payload := .shortLocalSlot 0 } ]

def mixedBody : MethodBody :=
  { Sample.loopBody with code := (Assembler.empty.statements mixedStatements).finish.1 }

theorem decode_assembled_mixed :
    exists listing : Listing,
      ((mixedBody.decode .standard).run Sample.metadata.resolve.respond .empty).1 =
        .ok listing ∧ listing.length = 4 := by
  have hlists : forall statement, statement ∈ mixedStatements ->
      Catalog.standard.Lists statement.opcode := by
    intro statement hstatement
    apply (Catalog.lists_ofDefinitions_iff Catalog.ofDefinitions_standardSet).mpr
    revert statement
    decide +kernel
  have hsuits : forall statement, statement ∈ mixedStatements ->
      statement.payload.Suits statement.opcode := by
    simp only [mixedStatements, List.forall_mem_cons]
    exact ⟨⟨_, rfl⟩, ⟨_, rfl⟩, ⟨_, rfl⟩, ⟨_, rfl⟩, by simp⟩
  have htext : Sample.metadata.resolve (.string Sample.labelToken) =
      .ok "Elapsed time: " := by
    decide +kernel
  have hresolves : forall statement, statement ∈ mixedStatements ->
      statement.payload.Resolves (.ofResponder Sample.metadata.resolve.respond)
        mixedBody := by
    simp only [mixedStatements, List.forall_mem_cons]
    refine ⟨trivial, trivial, ?_, Nat.zero_lt_one, by simp⟩
    intro outcome houtcome
    rcases houtcome with ⟨transcript, rfl⟩
    exact ⟨_, htext⟩
  rcases decode_assembled Catalog.ofDefinitions_standardSet mixedStatements hlists hsuits
    mixedBody rfl (by decide +kernel) Sample.metadata.resolve.respond hresolves .empty with
    ⟨listing, hdecode, hlength, -⟩
  exact ⟨listing, hdecode, hlength⟩

end MethodBody

end CilDisasm
