import CilDisasm.Proofs.Decoding.Concatenation
import CilDisasm.Proofs.Decoding.Fault
import CilDisasm.Proofs.Decoding.Grammar
import Mathlib.Order.Bounds.Defs

/-!
# Where decoding fails

Decoding that fails has decoded everything in front of some offset, and at this offset it
met the first bytes that are no instruction with an operand. The longest part of the method
body that decodes by itself ends there, and the error describes what stands there.
-/

namespace CilDisasm

open Statement (codeOf layOut)

theorem Cut.exists_append_of_codeOf_eq {catalog : Catalog} (hcatalog : catalog.Coherent)
    {statements others : List Statement}
    (hlegal : forall statement, statement ∈ statements -> statement.Legal catalog)
    (hothers : forall statement, statement ∈ others -> statement.Legal catalog)
    {rest : List UInt8} (hcode : codeOf others = codeOf statements ++ rest) :
    exists more : List Statement, others = statements ++ more ∧ codeOf more = rest := by
  have hcut := ofCode_append hcatalog hlegal rest
  rw [← hcode, ofCode_codeOf hcatalog hothers] at hcut
  have hsegments := congrArg (fun cut => cut.segments.toList.map Segment.statement) hcut
  simp only [List.map_append, Statement.map_statement_layOut] at hsegments
  refine ⟨_, hsegments, ?_⟩
  rw [hsegments, Statement.codeOf_append] at hcode
  exact List.append_cancel_left hcode

theorem Listing.exists_of_returns_extend_error {oracle : Oracle} {body : MethodBody}
    {statements : List Statement} {start : Nat} {listing : Listing} {error : DecodeError}
    (h : Dialogue.Returns oracle (extend body (layOut start statements) listing)
      (.error error)) :
    exists before : List Statement, exists statement : Statement,
      exists after : List Statement, exists operands : List Operand,
        statements = before ++ statement :: after ∧
          List.Forall₂ (fun segment operand =>
              segment.payload.Denotes oracle body segment.limit operand)
            (layOut start before) operands ∧
          Dialogue.Returns oracle
            ((statement.placed (start + (codeOf before).length)).operand body)
            (.error error) := by
  induction statements generalizing start listing with
  | nil =>
      have herror := Program.returns_done_iff.mp h
      cases herror
  | cons statement rest ih =>
      rcases Program.returns_bind_iff.mp h with ⟨outcome, hoperand, hrest⟩
      cases outcome with
      | error found =>
          cases Program.returns_done_iff.mp hrest
          exact ⟨[], statement, rest, [], rfl, List.Forall₂.nil, hoperand⟩
      | ok operand =>
          rcases ih (Dialogue.returns_report_bind_iff.mp hrest) with
            ⟨before, failing, after, operands, rfl, hdenotes, hfailing⟩
          have hfirst := Segment.returns_operand_ok_iff.mp hoperand
          refine ⟨statement :: before, failing, after, operand :: operands, rfl,
            List.Forall₂.cons hfirst hdenotes, ?_⟩
          rw [Statement.codeOf_cons, List.length_append, ← Nat.add_assoc]
          exact hfailing

namespace MethodBody

variable {body : MethodBody} {oracle : Oracle} {catalog : Catalog} {resolver : Resolver}
  {start : Nat} {error : DecodeError}

def cursorAt (body : MethodBody) (offset : Nat) : Cursor :=
  { buffer := body.code.toArray, position := offset }

theorem unread_cursorAt (offset : Nat) :
    (body.cursorAt offset).unread = body.code.drop offset := by
  simp [cursorAt, Cursor.unread]

theorem eq_cursorAt_of_consumes {bytes : List UInt8} {next : Cursor}
    (h : (body.cursorAt 0).Consumes bytes next) : next = body.cursorAt bytes.length := by
  have hbuffer := h.buffer_eq
  have hoffset := h.position_eq
  rcases next with ⟨buffer, position⟩
  simp only [cursorAt, Nat.zero_add] at hbuffer hoffset ⊢
  rw [hbuffer, hoffset]

/-!
# One step

At an offset decoding fails when there is no segment, or when the segment has no operand.
-/

inductive FailsAt (body : MethodBody) (oracle : Oracle) (catalog : Catalog) (start : Nat) :
    DecodeError -> Prop where
  | fault {fault : SegmentFault} :
      Segment.read catalog (body.cursorAt start) = .error fault ->
      FailsAt body oracle catalog start (.ofFault start fault)
  | operand {segment : Segment} {next : Cursor} {error : DecodeError} :
      Segment.read catalog (body.cursorAt start) = .ok (segment, next) ->
      Dialogue.Returns oracle (segment.operand body) (.error error) ->
      FailsAt body oracle catalog start error

theorem exists_read_cursorAt_eq_ok (hcatalog : catalog.Coherent)
    (hstart : start ≤ body.code.length) {statement : Statement}
    (hlegal : statement.Legal catalog)
    (hahead : statement.bytes <+: body.code.drop start) :
    exists next : Cursor,
      Segment.read catalog (body.cursorAt start) = .ok (statement.placed start, next) := by
  rcases hahead with ⟨rest, hrest⟩
  have hposition : (body.cursorAt start).position ≤ (body.cursorAt start).buffer.size := by
    simpa [cursorAt] using hstart
  have hunread : (body.cursorAt start).unread = statement.bytes ++ rest := by
    rw [unread_cursorAt, hrest]
  have hconsumes := Cursor.consumes_of_unread hposition hunread
  exact ⟨_, (Segment.read_eq_ok_iff hcatalog).mpr ⟨statement, hlegal, hconsumes, rfl⟩⟩

/-- Where decoding fails there is no statement whose token and slot stand for something. -/
theorem FailsAt.not_isPrefix (hcatalog : catalog.Coherent)
    (h : body.FailsAt oracle catalog start error) (hstart : start ≤ body.code.length)
    {statement : Statement} (hlegal : statement.Legal catalog)
    (hresolves : statement.payload.Resolves oracle body) :
    ¬ statement.bytes <+: body.code.drop start := by
  intro hahead
  rcases exists_read_cursorAt_eq_ok hcatalog hstart hlegal hahead with ⟨next, hread⟩
  cases h with
  | fault hfault =>
      rw [hread] at hfault
      cases hfault
  | operand hother hreturns =>
      rw [hread] at hother
      cases hother
      rcases Segment.ok_of_returns_operand hresolves hreturns with ⟨operand, hoperand⟩
      cases hoperand

/-!
# The whole run
-/

theorem transcribes_withCode_codeOf {statements : List Statement} {operands : List Operand}
    (hlegal : forall statement, statement ∈ statements -> statement.Legal catalog)
    (hdenotes : List.Forall₂ (fun segment operand =>
        segment.payload.Denotes oracle body segment.limit operand)
      (layOut 0 statements) operands) :
    (body.withCode (codeOf statements)).Transcribes oracle catalog statements operands := by
  rcases forall₂_denotes_layOut_iff.mp hdenotes with ⟨hlengths, hall⟩
  refine ⟨rfl, hlegal, hlengths, ?_⟩
  intro index statement operand hstatement hoperand
  exact denotes_withCode_iff.mpr (hall hstatement hoperand)

/-- Statements that decode with their operands, and behind them a place where decoding
fails. -/
structure StopsBehind (body : MethodBody) (oracle : Oracle) (catalog : Catalog)
    (statements : List Statement) (operands : List Operand) (error : DecodeError) : Prop where
  code_eq : body.code = codeOf statements ++ body.code.drop (codeOf statements).length
  transcribes :
    (body.withCode (codeOf statements)).Transcribes oracle catalog statements operands
  length_lt : (codeOf statements).length < body.code.length
  failsAt : body.FailsAt oracle catalog (codeOf statements).length error

theorem exists_stopsBehind_of_returns_extend (hcatalog : catalog.Coherent)
    {statements : List Statement} {rest : List UInt8}
    (hcode : body.code = codeOf statements ++ rest)
    (hlegal : forall statement, statement ∈ statements -> statement.Legal catalog)
    (h : Dialogue.Returns oracle (Listing.empty.extend body (layOut 0 statements))
      (.error error)) :
    exists front : List Statement, exists operands : List Operand,
      body.StopsBehind oracle catalog front operands error := by
  rcases Listing.exists_of_returns_extend_error h with
    ⟨front, statement, after, operands, rfl, hdenotes, hfailing⟩
  rw [Statement.codeOf_append, Statement.codeOf_cons, List.append_assoc, List.append_assoc]
    at hcode
  rw [Nat.zero_add] at hfailing
  have hdrop : body.code.drop (codeOf front).length =
      statement.bytes ++ (codeOf after ++ rest) := by
    rw [hcode, List.drop_left]
  have hahead : statement.bytes <+: body.code.drop (codeOf front).length := by
    rw [hdrop]
    exact List.prefix_append _ _
  have hstart : (codeOf front).length < body.code.length := by
    have hpos := statement.length_bytes_pos
    rw [hcode, List.length_append, List.length_append]
    exact Nat.lt_add_of_pos_right (Nat.lt_of_lt_of_le hpos (Nat.le_add_right _ _))
  have hstatement : statement.Legal catalog :=
    hlegal statement (List.mem_append_right _ List.mem_cons_self)
  rcases exists_read_cursorAt_eq_ok hcatalog (Nat.le_of_lt hstart) hstatement hahead with
    ⟨last, hread⟩
  refine ⟨front, operands, ?_, transcribes_withCode_codeOf ?_ hdenotes, hstart,
    FailsAt.operand hread hfailing⟩
  · rw [hdrop]
    exact hcode
  · intro other hother
    exact hlegal other (List.mem_append_left _ hother)

theorem stopsBehind_of_broken {statements : List Statement} {operands : List Operand}
    {next : Cursor} {offset : Nat} {fault : SegmentFault}
    (hconsumes : (body.cursorAt 0).Consumes (codeOf statements) next)
    (htranscribes :
      (body.withCode (codeOf statements)).Transcribes oracle catalog statements operands)
    (hbroken : Cut.Ends catalog next (some (offset, fault))) :
    body.StopsBehind oracle catalog statements operands (.ofFault offset fault) := by
  cases eq_cursorAt_of_consumes hconsumes
  have hunread := hconsumes.unread_eq
  rw [unread_cursorAt, unread_cursorAt, List.drop_zero] at hunread
  cases hbroken with
  | broken hmore hread =>
      refine ⟨hunread, htranscribes, ?_, FailsAt.fault hread⟩
      simpa [Cursor.atEnd, cursorAt] using hmore

/-- Decoding that fails passes over statements with operands up to the place where it
fails. -/
theorem exists_stopsBehind_of_returns_decode (hcatalog : catalog.Coherent)
    (hlength : body.code.length < codeLengthLimit)
    (h : Dialogue.Returns oracle (body.decode catalog) (.error error)) :
    exists statements : List Statement, exists operands : List Operand,
      body.StopsBehind oracle catalog statements operands error := by
  rcases Cut.exists_statements_of_ofCode hcatalog body.code with
    ⟨statements, next, hlegal, hconsumes, hsegments, hends⟩
  rcases (returns_decode_error_iff hlength).mp h with
    hextend | ⟨listing, offset, fault, hextend, hfault, rfl⟩
  · have hunread := hconsumes.unread_eq
    rw [Cursor.unread_ofBytes] at hunread
    rw [hsegments] at hextend
    exact exists_stopsBehind_of_returns_extend hcatalog hunread hlegal hextend
  · rw [hsegments] at hextend
    rcases Listing.returns_extend_ok_iff.mp hextend with ⟨operands, hdenotes, -⟩
    have hbroken : Cut.Ends catalog next (some (offset, fault)) := by
      rw [← hfault]
      exact hends
    exact ⟨statements, operands, stopsBehind_of_broken hconsumes
      (transcribes_withCode_codeOf hlegal hdenotes) hbroken⟩

end MethodBody

/-!
# What errors say
-/

/-- The error is about what stands at an offset of a method body. -/
inductive DecodeError.Describes (body : MethodBody) (catalog : Catalog)
    (resolver : Resolver) (start : Nat) : DecodeError -> Prop where
  | outOfRange {error : OutOfRange} :
      error.length = body.code.length ->
      start < error.position ->
      error.position ≤ body.code.length ->
      body.code.length < error.position + error.needed ->
      Describes body catalog resolver start (.outOfRange error)
  | unknownOpcode {code : OpcodeCode} :
      code ≠ .oneByte extensionByte ->
      code.bytes <+: body.code.drop start ->
      catalog.lookup code = none ->
      Describes body catalog resolver start (.unknownOpcode code.value start)
  | unsupportedOperand {opcode : Opcode} :
      catalog.Lists opcode ->
      opcode.format = .phi ->
      opcode.bytes <+: body.code.drop start ->
      Describes body catalog resolver start (.unsupportedOperand opcode.name .phi start)
  | symbol {statement : Statement} {query : Query} {error : ResolveError} :
      statement.Legal catalog ->
      statement.bytes <+: body.code.drop start ->
      statement.payload.query? body.context = some query ->
      resolver query = .error error ->
      Describes body catalog resolver start (.symbol start error)
  | slotOutOfRange {statement : Statement} {kind : SlotKind} {index : UInt16} :
      statement.Legal catalog ->
      statement.bytes <+: body.code.drop start ->
      statement.payload.slot? = some (kind, index) ->
      body.slotCount kind ≤ index.toNat ->
      Describes body catalog resolver start
        (.slotOutOfRange kind index (body.slotCount kind) start)

namespace MethodBody

variable {body : MethodBody} {catalog : Catalog} {resolver : Resolver} {start : Nat}
  {error : DecodeError}

theorem FailsAt.describes (hcatalog : catalog.Coherent)
    (h : body.FailsAt (.ofResolver resolver) catalog start error)
    (hstart : start < body.code.length) : error.Describes body catalog resolver start := by
  have hsize : (body.cursorAt start).buffer.size = body.code.length := by
    simp [cursorAt]
  cases h with
  | fault hfault =>
      have hmore : (body.cursorAt start).atEnd = false := by
        simpa [Cursor.atEnd, cursorAt] using hstart
      cases Segment.faults_of_read hcatalog hmore hfault with
      | outOfRange hlt hoverruns =>
          exact .outOfRange (hsize ▸ hoverruns.length_eq) hlt
            (hsize ▸ hoverruns.position_le_size) (hsize ▸ hoverruns.size_lt)
      | unknownOpcode hne hahead hlookup =>
          rw [unread_cursorAt] at hahead
          exact .unknownOpcode hne hahead hlookup
      | unsupportedOperand hlists hformat hahead =>
          rw [unread_cursorAt] at hahead
          rw [DecodeError.ofFault, hformat]
          exact .unsupportedOperand hlists hformat hahead
  | operand hread hreturns =>
      rcases (Segment.read_eq_ok_iff hcatalog).mp hread with
        ⟨statement, hlegal, hconsumes, rfl⟩
      have hahead : statement.bytes <+: body.code.drop start := by
        rw [← unread_cursorAt, hconsumes.unread_eq]
        exact List.prefix_append _ _
      cases Segment.lacks_of_returns_operand hreturns with
      | symbol hquery hreply => exact .symbol hlegal hahead hquery hreply
      | slotOutOfRange hslot hcount => exact .slotOutOfRange hlegal hahead hslot hcount

/-- The lengths at which a method body can be cut off so that what is left decodes. -/
def decodableCuts (body : MethodBody) (catalog : Catalog) (resolver : Resolver) : Set Nat :=
  {cut | cut ≤ body.code.length ∧
    exists listing : Listing,
      ((body.withCode (body.code.take cut)).decode catalog).result resolver = .ok listing}

theorem mem_decodableCuts_of_transcribes (hcatalog : catalog.Coherent)
    (hlength : body.code.length < codeLengthLimit) {statements : List Statement}
    {operands : List Operand} {rest : List UInt8}
    (hcode : body.code = codeOf statements ++ rest)
    (h : (body.withCode (codeOf statements)).Transcribes (.ofResolver resolver) catalog
      statements operands) :
    (codeOf statements).length ∈ body.decodableCuts catalog resolver := by
  have hle : (codeOf statements).length ≤ body.code.length := by
    rw [hcode, List.length_append]
    exact Nat.le_add_right _ _
  refine ⟨hle, (Listing.compose statements operands).resolveTargets, ?_⟩
  have htake : body.code.take (codeOf statements).length = codeOf statements := by
    rw [hcode, List.take_left]
  rw [htake, Dialogue.result_eq_iff_returns, returns_decode_ok_iff hcatalog]
  exact ⟨Nat.lt_of_le_of_lt hle hlength, statements, operands, h, rfl⟩

theorem zero_mem_decodableCuts (hcatalog : catalog.Coherent)
    (hlength : body.code.length < codeLengthLimit) :
    0 ∈ body.decodableCuts catalog resolver := by
  have htranscribes : (body.withCode (codeOf [])).Transcribes (.ofResolver resolver) catalog
      [] [] := by
    constructor <;> simp [withCode]
  exact mem_decodableCuts_of_transcribes hcatalog hlength rfl htranscribes

theorem le_of_mem_decodableCuts (hcatalog : catalog.Coherent) {statements : List Statement}
    {rest : List UInt8} (hcode : body.code = codeOf statements ++ rest)
    (hlegal : forall statement, statement ∈ statements -> statement.Legal catalog)
    (hnone : forall statement : Statement,
      statement.Legal catalog ->
      statement.payload.Resolves (.ofResolver resolver) body ->
      ¬ statement.bytes <+: rest)
    {cut : Nat} (hcut : cut ∈ body.decodableCuts catalog resolver) :
    cut ≤ (codeOf statements).length := by
  rcases hcut with ⟨hle, listing, hresult⟩
  rcases (returns_decode_ok_iff hcatalog).mp (Dialogue.result_eq_iff_returns.mp hresult) with
    ⟨-, others, operands, htranscribes, -⟩
  apply Nat.le_of_not_lt
  intro hlt
  have hothers : codeOf others =
      codeOf statements ++ rest.take (cut - (codeOf statements).length) := by
    rw [htranscribes.codeOf_eq]
    show body.code.take cut = _
    rw [hcode, List.take_append, List.take_of_length_le (Nat.le_of_lt hlt)]
  rcases Cut.exists_append_of_codeOf_eq hcatalog hlegal htranscribes.legal hothers with
    ⟨more, rfl, hmore⟩
  cases more with
  | nil =>
      have hlength := congrArg List.length htranscribes.codeOf_eq
      rw [List.append_nil] at hlength
      have htake : (body.code.take cut).length = cut := List.length_take_of_le hle
      exact absurd (hlength.trans htake) (Nat.ne_of_lt hlt)
  | cons statement after =>
      have hstatement : statement ∈ statements ++ statement :: after :=
        List.mem_append_right _ List.mem_cons_self
      apply hnone statement
      · exact htranscribes.legal statement hstatement
      · exact resolves_withCode_iff.mp (htranscribes.resolves hstatement)
      · rw [Statement.codeOf_cons] at hmore
        exact (List.prefix_append _ _).trans (hmore ▸ List.take_prefix _ _)

/-- An error is about the first instruction that cannot be decoded. It stands at the end of
the longest part of the method body that decodes. -/
theorem describes_of_result_decode_error {definitions : List Opcode}
    (hcatalog : Catalog.ofDefinitions definitions = .ok catalog) (body : MethodBody)
    (hlength : body.code.length < codeLengthLimit) (resolver : Resolver)
    {error : DecodeError}
    (hresult : (body.decode catalog).result resolver = .error error) :
    0 ∈ body.decodableCuts catalog resolver ∧
      exists start : Nat,
        IsGreatest (body.decodableCuts catalog resolver) start ∧
          start < body.code.length ∧
          (forall statement : Statement,
            statement.Legal catalog ->
            statement.payload.Resolves (.ofResolver resolver) body ->
            ¬ statement.bytes <+: body.code.drop start) ∧
          error.Describes body catalog resolver start := by
  have hcoherent := Catalog.coherent_ofDefinitions hcatalog
  have hreturns := Dialogue.result_eq_iff_returns.mp hresult
  rcases exists_stopsBehind_of_returns_decode hcoherent hlength hreturns with
    ⟨statements, operands, hstops⟩
  have hnone : forall statement : Statement,
      statement.Legal catalog ->
      statement.payload.Resolves (.ofResolver resolver) body ->
      ¬ statement.bytes <+: body.code.drop (codeOf statements).length :=
    fun _ hlegal hresolves =>
      hstops.failsAt.not_isPrefix hcoherent (Nat.le_of_lt hstops.length_lt) hlegal hresolves
  refine ⟨zero_mem_decodableCuts hcoherent hlength, (codeOf statements).length, ⟨?_, ?_⟩,
    hstops.length_lt, hnone, hstops.failsAt.describes hcoherent hstops.length_lt⟩
  · exact mem_decodableCuts_of_transcribes hcoherent hlength hstops.code_eq
      hstops.transcribes
  · intro cut hcut
    exact le_of_mem_decodableCuts hcoherent hstops.code_eq hstops.transcribes.legal hnone hcut

def brokenBody : MethodBody :=
  MethodBody.ofCode [0x2A, 0x72, 0x05, 0x00, 0x00, 0x70, 0xFE]

theorem describes_of_result_decode_error_broken :
    (brokenBody.decode .standard).result Sample.metadata.resolve =
        .error (.symbol 1 { token := ⟨0x70000005⟩, failure := .noSuchString }) ∧
      IsGreatest (brokenBody.decodableCuts .standard Sample.metadata.resolve) 1 := by
  have hresult : (brokenBody.decode .standard).result Sample.metadata.resolve =
      .error (.symbol 1 { token := ⟨0x70000005⟩, failure := .noSuchString }) := by
    decide +kernel
  rcases (describes_of_result_decode_error Catalog.ofDefinitions_standardSet brokenBody
    (by decide) Sample.metadata.resolve hresult).2 with ⟨start, hgreatest, -, -, hdescribes⟩
  cases hdescribes
  exact ⟨hresult, hgreatest⟩

end MethodBody

end CilDisasm
