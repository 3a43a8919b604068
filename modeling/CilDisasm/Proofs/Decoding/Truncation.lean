import CilDisasm.Proofs.Decoding.Failure
import Mathlib.Data.List.Infix

/-!
# Method bodies that are cut off

The front of a method body that decodes is decoded as well when it ends between two
instructions. When it ends inside an instruction, the code or the operand bytes of this one
are cut short, and a read runs over the end. Nothing else can go wrong there, since what is
left of the instruction is not the encoding of another one, and neither is it that of an
opcode that the catalog does not have.
-/

namespace CilDisasm

open Statement (codeOf offsetAt)

/-!
# One encoding at the front of the bytes
-/

theorem OpcodeCode.eq_of_isPrefix {code other : OpcodeCode} {bytes : List UInt8}
    (hcode : code ≠ .oneByte extensionByte) (hother : other ≠ .oneByte extensionByte)
    (hfront : code.bytes <+: bytes) (hfront' : other.bytes <+: bytes) : code = other := by
  have hread : forall found : OpcodeCode, found ≠ .oneByte extensionByte ->
      found.bytes <+: bytes ->
      exists next : Cursor, read (.ofBytes bytes) = .ok (found, next) := by
    intro found hfound hbytes
    rcases hbytes with ⟨rest, hrest⟩
    have hunread : (Cursor.ofBytes bytes).unread = found.bytes ++ rest := by
      rw [Cursor.unread_ofBytes, hrest]
    have hconsumes := Cursor.consumes_of_unread (Nat.zero_le _) hunread
    exact ⟨_, read_eq_ok_iff.mpr ⟨hfound, hconsumes⟩⟩
  rcases hread code hcode hfront with ⟨_, hfirst⟩
  rcases hread other hother hfront' with ⟨_, hsecond⟩
  rw [hfirst] at hsecond
  cases hsecond
  rfl

namespace Statement

variable {catalog : Catalog} {statement other : Statement} {bytes : List UInt8}

/-- No statement is the front of another one. -/
theorem eq_of_isPrefix (hcatalog : catalog.Coherent) (hlegal : statement.Legal catalog)
    (hother : other.Legal catalog) (hfront : statement.bytes <+: bytes)
    (hfront' : other.bytes <+: bytes) : statement = other := by
  have hstart : 0 ≤ (MethodBody.ofCode bytes).code.length := Nat.zero_le _
  rcases MethodBody.exists_read_cursorAt_eq_ok hcatalog hstart hlegal hfront with
    ⟨_, hfirst⟩
  rcases MethodBody.exists_read_cursorAt_eq_ok hcatalog hstart hother hfront' with
    ⟨_, hsecond⟩
  rw [hfirst] at hsecond
  have hplaced := (Prod.mk.inj (Except.ok.inj hsecond)).1
  exact congrArg Segment.statement hplaced

theorem Legal.lookup_of_isPrefix (hcatalog : catalog.Coherent)
    (hlegal : statement.Legal catalog) (hfront : statement.bytes <+: bytes)
    {code : OpcodeCode} (hcode : code ≠ .oneByte extensionByte)
    (hfront' : code.bytes <+: bytes) : catalog.lookup code = some statement.opcode := by
  rcases hlegal.lists with ⟨own, hlookup⟩
  have hown := hcatalog own statement.opcode hlookup
  have hne := hcatalog.ne_extensionByte hlookup
  have hownFront : own.bytes <+: bytes := by
    rw [← Opcode.bytes_of_code? hown]
    exact (List.prefix_append _ _).trans hfront
  rw [OpcodeCode.eq_of_isPrefix hcode hne hfront' hownFront]
  exact hlookup

end Statement

/-!
# The place where the front breaks off
-/

/-- A read behind `start` that runs over the end of a method body of `length` bytes. -/
structure OutOfRange.RunsOver (error : OutOfRange) (start length : Nat) : Prop where
  length_eq : error.length = length
  lt_position : start < error.position
  position_le : error.position ≤ length
  length_lt : length < error.position + error.needed

namespace MethodBody

variable {body : MethodBody} {catalog : Catalog} {resolver : Resolver} {cut start : Nat}

/-- What is left of a statement cannot fail in another way than by its length. -/
theorem runsOver_of_describes (hcatalog : catalog.Coherent) {statement : Statement}
    (hlegal : statement.Legal catalog) (hwhole : statement.bytes <+: body.code.drop start)
    (hshort : ¬ statement.bytes <+: (body.code.take cut).drop start) {error : DecodeError}
    (h : error.Describes (body.withCode (body.code.take cut)) catalog resolver start)
    (hcut : cut ≤ body.code.length) :
    exists found : OutOfRange, error = .outOfRange found ∧ found.RunsOver start cut := by
  have hlength : (body.withCode (body.code.take cut)).code.length = cut :=
    List.length_take_of_le hcut
  have hfront : (body.code.take cut).drop start <+: body.code.drop start :=
    (List.take_prefix cut body.code).drop start
  cases h with
  | @outOfRange found hfound hlt hle hover =>
      rw [hlength] at hfound hle hover
      exact ⟨found, rfl, hfound, hlt, hle, hover⟩
  | unknownOpcode hcode hahead hlookup =>
      rw [hlegal.lookup_of_isPrefix hcatalog hwhole hcode (hahead.trans hfront)] at hlookup
      cases hlookup
  | unsupportedOperand hlists hformat hahead =>
      rcases hlists with ⟨code, hlookup⟩
      have hopcode := hcatalog code _ hlookup
      have hcode := hcatalog.ne_extensionByte hlookup
      rw [Opcode.bytes_of_code? hopcode] at hahead
      rw [hlegal.lookup_of_isPrefix hcatalog hwhole hcode (hahead.trans hfront)] at hlookup
      have hsuits := hlegal.suits
      rw [Payload.Suits, Option.some.inj hlookup, hformat] at hsuits
      exact hsuits.elim
  | symbol hother hahead _ _ =>
      rw [Statement.eq_of_isPrefix hcatalog hlegal hother hwhole (hahead.trans hfront)]
        at hshort
      exact absurd hahead hshort
  | slotOutOfRange hother hahead _ _ =>
      rw [Statement.eq_of_isPrefix hcatalog hlegal hother hwhole (hahead.trans hfront)]
        at hshort
      exact absurd hahead hshort

namespace Transcribes

variable {oracle : Oracle} {statements : List Statement} {operands : List Operand}

theorem take (h : body.Transcribes oracle catalog statements operands) (count : Nat) :
    (body.withCode (codeOf (statements.take count))).Transcribes oracle catalog
      (statements.take count) (operands.take count) where
  codeOf_eq := rfl
  legal := by
    intro statement hstatement
    exact h.legal statement (List.mem_of_mem_take hstatement)
  length_eq := by
    rw [List.length_take, List.length_take, h.length_eq]
  denotes := by
    intro index statement operand hstatement hoperand
    have hindex : index < count := by
      by_contra hle
      rw [List.getElem?_take_eq_none (Nat.le_of_not_lt hle)] at hstatement
      cases hstatement
    rw [List.getElem?_take_of_lt hindex] at hstatement hoperand
    have hoffset : offsetAt (statements.take count) (index + 1) =
        offsetAt statements (index + 1) := by
      rw [offsetAt, offsetAt, List.take_take, Nat.min_eq_left hindex]
    rw [hoffset]
    exact denotes_withCode_iff.mpr (h.denotes hstatement hoperand)

theorem codeOf_take (h : body.Transcribes oracle catalog statements operands) (count : Nat) :
    codeOf (statements.take count) = body.code.take (offsetAt statements count) := by
  have hcode := congrArg codeOf (List.take_append_drop count statements)
  rw [Statement.codeOf_append, h.codeOf_eq] at hcode
  rw [← hcode, offsetAt, List.take_left]

theorem exists_statement_of_take_eq (hcatalog : catalog.Coherent)
    (h : body.Transcribes oracle catalog statements operands) (hcut : cut < body.code.length)
    {front : List Statement}
    (hlegal : forall statement, statement ∈ front -> statement.Legal catalog)
    {rest : List UInt8} (htake : body.code.take cut = codeOf front ++ rest) :
    exists index : Nat, exists statement : Statement,
      statements[index]? = some statement ∧
        offsetAt statements index = (codeOf front).length ∧
        statement.bytes <+: body.code.drop (codeOf front).length := by
  have hcode : codeOf statements = codeOf front ++ (rest ++ body.code.drop cut) := by
    rw [h.codeOf_eq, ← List.append_assoc, ← htake, List.take_append_drop]
  rcases Cut.exists_append_of_codeOf_eq hcatalog hlegal h.legal hcode with
    ⟨more, rfl, hrest⟩
  cases more with
  | nil =>
      have hnil := (List.append_eq_nil_iff.mp hrest.symm).2
      exact absurd (List.drop_eq_nil_iff.mp hnil) (Nat.not_le.mpr hcut)
  | cons statement after =>
      have hoffset : offsetAt (front ++ statement :: after) front.length =
          (codeOf front).length := by
        rw [Statement.offsetAt_append_of_le (Nat.le_refl _), Statement.offsetAt_length]
      have hstatement : (front ++ statement :: after)[front.length]? = some statement := by
        rw [List.getElem?_append_right (Nat.le_refl _), Nat.sub_self]
        rfl
      refine ⟨front.length, statement, hstatement, hoffset, ?_⟩
      rw [← h.codeOf_eq, ← hoffset]
      exact Statement.bytes_prefix_drop hstatement

end Transcribes

/-!
# Cut off method bodies
-/

section CutOff

variable {statements : List Statement} {operands : List Operand}

theorem exists_result_decode_take (hcatalog : catalog.Coherent)
    (hlimit : body.code.length < codeLengthLimit)
    (h : body.Transcribes (.ofResolver resolver) catalog statements operands) (count : Nat) :
    exists shorter : Listing,
      ((body.withCode (body.code.take (offsetAt statements count))).decode catalog).result
        resolver = .ok shorter := by
  have hshort : (body.code.take (offsetAt statements count)).length < codeLengthLimit :=
    Nat.lt_of_le_of_lt (List.length_take_le' _ _) hlimit
  refine ⟨(Listing.compose (statements.take count) (operands.take count)).resolveTargets, ?_⟩
  rw [Dialogue.result_eq_iff_returns, returns_decode_ok_iff hcatalog]
  refine ⟨hshort, statements.take count, operands.take count, ?_, rfl⟩
  rw [← h.codeOf_take]
  exact h.take count

theorem exists_offsetAt_of_result_decode_take (hcatalog : catalog.Coherent)
    (h : body.Transcribes (.ofResolver resolver) catalog statements operands)
    (hcut : cut < body.code.length) {shorter : Listing}
    (hresult : ((body.withCode (body.code.take cut)).decode catalog).result resolver =
      .ok shorter) :
    exists index : Nat, exists statement : Statement,
      statements[index]? = some statement ∧ offsetAt statements index = cut := by
  rcases (returns_decode_ok_iff hcatalog).mp (Dialogue.result_eq_iff_returns.mp hresult) with
    ⟨-, front, others, hfront, -⟩
  have htake : body.code.take cut = codeOf front ++ [] := by
    rw [List.append_nil]
    exact hfront.codeOf_eq.symm
  rcases h.exists_statement_of_take_eq hcatalog hcut hfront.legal htake with
    ⟨index, statement, hstatement, hoffset, -⟩
  refine ⟨index, statement, hstatement, ?_⟩
  rw [hoffset, hfront.codeOf_eq]
  exact List.length_take_of_le (Nat.le_of_lt hcut)

theorem exists_runsOver_of_result_decode_take (hcatalog : catalog.Coherent)
    (hlimit : body.code.length < codeLengthLimit)
    (h : body.Transcribes (.ofResolver resolver) catalog statements operands)
    (hcut : cut < body.code.length) {error : DecodeError}
    (hresult : ((body.withCode (body.code.take cut)).decode catalog).result resolver =
      .error error) :
    exists index : Nat, exists statement : Statement, exists found : OutOfRange,
      statements[index]? = some statement ∧
        offsetAt statements index < cut ∧ cut < offsetAt statements (index + 1) ∧
        error = .outOfRange found ∧ found.RunsOver (offsetAt statements index) cut := by
  have hlength : (body.withCode (body.code.take cut)).code.length = cut :=
    List.length_take_of_le (Nat.le_of_lt hcut)
  have hshort : (body.withCode (body.code.take cut)).code.length < codeLengthLimit := by
    rw [hlength]
    exact Nat.lt_trans hcut hlimit
  rcases exists_stopsBehind_of_returns_decode hcatalog hshort
    (Dialogue.result_eq_iff_returns.mp hresult) with ⟨front, others, hstops⟩
  rcases h.exists_statement_of_take_eq hcatalog hcut hstops.transcribes.legal
    hstops.code_eq with ⟨index, statement, hstatement, hoffset, hwhole⟩
  have hmem := List.mem_of_getElem? hstatement
  have hlegal := h.legal statement hmem
  have hstart := hstops.length_lt
  have hmissing : ¬ statement.bytes <+: (body.code.take cut).drop (codeOf front).length :=
    hstops.failsAt.not_isPrefix hcatalog (Nat.le_of_lt hstart) hlegal
      (resolves_withCode_iff.mpr (h.resolves hmem))
  rcases runsOver_of_describes hcatalog hlegal hwhole hmissing
    (hstops.failsAt.describes hcatalog hstart) (Nat.le_of_lt hcut) with
    ⟨found, rfl, hruns⟩
  rw [hlength] at hstart
  refine ⟨index, statement, found, hstatement, ?_, ?_, rfl, ?_⟩
  · rw [hoffset]
    exact hstart
  · rw [Statement.offsetAt_succ hstatement, hoffset]
    apply Nat.lt_of_not_le
    intro hle
    apply hmissing
    rw [List.drop_take, List.prefix_take_iff]
    exact ⟨hwhole, Nat.le_sub_of_add_le' hle⟩
  · rw [hoffset]
    exact hruns

end CutOff

/-- A method body that decodes can be cut off between two instructions, and only there. Cut
off inside an instruction, it fails with a read in this instruction that runs over the
end. -/
theorem result_decode_take {definitions : List Opcode}
    (hcatalog : Catalog.ofDefinitions definitions = .ok catalog) (body : MethodBody)
    (resolver : Resolver) {listing : Listing}
    (hresult : (body.decode catalog).result resolver = .ok listing)
    (hcut : cut < body.code.length) :
    ((exists shorter : Listing,
        ((body.withCode (body.code.take cut)).decode catalog).result resolver =
          .ok shorter) <->
        exists index : Nat, exists instruction : Instruction,
          listing.get? index = some instruction ∧ instruction.offset = cut) ∧
      ((forall (index : Nat) (instruction : Instruction),
          listing.get? index = some instruction -> instruction.offset ≠ cut) ->
        exists index : Nat, exists instruction : Instruction, exists error : OutOfRange,
          listing.get? index = some instruction ∧
            instruction.offset < cut ∧ cut < instruction.offset + instruction.size ∧
            ((body.withCode (body.code.take cut)).decode catalog).result resolver =
              .error (.outOfRange error) ∧
            error.RunsOver instruction.offset cut) := by
  have hcoherent := Catalog.coherent_ofDefinitions hcatalog
  rcases (returns_decode_ok_iff hcoherent).mp (Dialogue.result_eq_iff_returns.mp hresult) with
    ⟨hlimit, statements, operands, htranscribes, rfl⟩
  have hboundary : forall shorter : Listing,
      ((body.withCode (body.code.take cut)).decode catalog).result resolver = .ok shorter ->
      exists index : Nat, exists instruction : Instruction,
        (Listing.compose statements operands).resolveTargets.get? index = some instruction ∧
          instruction.offset = cut := by
    intro shorter hshorter
    rcases exists_offsetAt_of_result_decode_take hcoherent htranscribes hcut hshorter with
      ⟨index, statement, hstatement, hoffset⟩
    rcases htranscribes.exists_instruction hcoherent hlimit hstatement with
      ⟨instruction, hget, hrenders⟩
    exact ⟨index, instruction, hget, hrenders.offset_eq.trans hoffset⟩
  refine ⟨⟨?_, ?_⟩, ?_⟩
  · intro h
    rcases h with ⟨shorter, hshorter⟩
    exact hboundary shorter hshorter
  · intro h
    rcases h with ⟨index, instruction, hget, rfl⟩
    rcases htranscribes.exists_renders hcoherent hlimit hget with ⟨_, -, hrenders⟩
    rw [hrenders.offset_eq]
    exact exists_result_decode_take hcoherent hlimit htranscribes index
  · intro hinside
    cases hshort : ((body.withCode (body.code.take cut)).decode catalog).result resolver with
    | ok shorter =>
        rcases hboundary shorter hshort with ⟨index, instruction, hget, hoffset⟩
        exact absurd hoffset (hinside index instruction hget)
    | error error =>
        rcases exists_runsOver_of_result_decode_take hcoherent hlimit htranscribes hcut
          hshort with ⟨index, statement, found, hstatement, hlt, hover, rfl, hruns⟩
        rcases htranscribes.exists_instruction hcoherent hlimit hstatement with
          ⟨instruction, hget, hrenders⟩
        rw [Statement.offsetAt_succ hstatement, ← hrenders.offset_eq, ← hrenders.size_eq]
          at hover
        rw [← hrenders.offset_eq] at hlt hruns
        exact ⟨index, instruction, found, hget, hlt, hover, rfl, hruns⟩

theorem result_decode_take_loopBody :
    (exists shorter : Listing,
        ((Sample.loopBody.withCode (Sample.loopBody.code.take 5)).decode .standard).result
          Sample.metadata.resolve = .ok shorter) ∧
      exists instruction : Instruction, exists error : OutOfRange,
        instruction.offset < 12 ∧ 12 < instruction.offset + instruction.size ∧
          ((Sample.loopBody.withCode (Sample.loopBody.code.take 12)).decode
              .standard).result Sample.metadata.resolve = .error (.outOfRange error) ∧
          error.RunsOver instruction.offset 12 := by
  have hoffsets : (((Sample.loopBody.decode .standard).result
      Sample.metadata.resolve).toOption.any fun listing =>
        listing.toList.any (fun instruction => instruction.offset = 5) &&
          listing.toList.all (fun instruction => instruction.offset ≠ 12)) = true := by
    decide +kernel
  have hlonger : 12 < Sample.loopBody.code.length := by
    decide +kernel
  cases hresult : (Sample.loopBody.decode .standard).result Sample.metadata.resolve with
  | error error =>
      rw [hresult] at hoffsets
      cases hoffsets
  | ok listing =>
      rw [hresult] at hoffsets
      rcases (Bool.and_eq_true_iff.mp hoffsets) with ⟨hany, hall⟩
      constructor
      · rcases List.any_eq_true.mp hany with ⟨instruction, hmem, hoffset⟩
        rcases List.getElem?_of_mem hmem with ⟨index, hget⟩
        rw [Listing.toList, Array.getElem?_toList] at hget
        exact (result_decode_take Catalog.ofDefinitions_standardSet Sample.loopBody
          Sample.metadata.resolve hresult (by omega)).1.mpr
          ⟨index, instruction, hget, of_decide_eq_true hoffset⟩
      · have hinside : forall (index : Nat) (instruction : Instruction),
            listing.get? index = some instruction -> instruction.offset ≠ 12 := by
          intro index instruction hget
          have hmem := Listing.mem_toList_of_get? hget
          exact of_decide_eq_true (List.all_eq_true.mp hall instruction hmem)
        rcases (result_decode_take Catalog.ofDefinitions_standardSet Sample.loopBody
          Sample.metadata.resolve hresult hlonger).2 hinside with
          ⟨_, instruction, error, -, hlt, hover, herror, hruns⟩
        exact ⟨instruction, error, hlt, hover, herror, hruns⟩

end MethodBody

end CilDisasm
