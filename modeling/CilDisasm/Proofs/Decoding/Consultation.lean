import CilDisasm.Proofs.Decoding.Reassembly
import CilDisasm.Proofs.Decoding.Truncation
import CilDisasm.Proofs.Program.Calls

/-!
# What decoding asks

Decoding asks once for every token, in the order of the instructions, and for nothing else.
It stops with the first question that fails, and whatever else is wrong with the method body
stops it before the questions behind that place. So the questions can be told from the bytes
of the method body and the place where decoding ends, whoever answers them and however the
answers depend on each other.
-/

namespace CilDisasm

open Statement (codeOf layOut)

def OperandFormat.query? (context : Option GenericContext) (token : Token) :
    OperandFormat -> Option Query
  | .string => some (.string token)
  | .type | .method | .field | .member => some (.member token context)
  | .signature => some (.signature token)
  | _ => Option.none

def Query.operand : (query : Query) -> query.Answer -> Operand
  | .string _, answer => .string answer
  | .member _ _, answer => .member answer
  | .signature _, answer => .signature answer

def Instruction.hasToken (instruction : Instruction) : Bool :=
  instruction.opcode.format.isToken

namespace MethodBody

/-- The query of an opcode at some offset. Its token is the word behind the code. -/
def queryAt? (body : MethodBody) (offset : Nat) (opcode : Opcode) : Option Query :=
  opcode.format.query? body.context
    ⟨Word.ofBytes UInt32 ((body.code.drop (offset + opcode.size.toNat)).take 4)⟩

def queries (body : MethodBody) (statements : List Statement) : List Query :=
  (layOut 0 statements).filterMap (fun segment =>
    body.queryAt? segment.offset segment.opcode)

/-- A consultation is that of an instruction, and its answer is the operand. -/
structure Answers (body : MethodBody) (consultation : Consultation)
    (instruction : Instruction) : Prop where
  query_eq : body.queryAt? instruction.offset instruction.opcode = some consultation.query
  operand_eq : consultation.outcome.map consultation.query.operand = .ok instruction.operand

/-- Consultations that all succeeded, one for each query of statements. -/
structure Covers (body : MethodBody) (statements : List Statement)
    (consultations : List Consultation) : Prop where
  queries_eq : consultations.map Consultation.query = body.queries statements
  isOk : forall consultation, consultation ∈ consultations -> consultation.outcome.isOk = true

/-- A method body begins with statements, and all slots that these name exist. -/
structure Begins (body : MethodBody) (catalog : Catalog) (statements : List Statement) :
    Prop where
  isPrefix : codeOf statements <+: body.code
  legal : forall statement, statement ∈ statements -> statement.Legal catalog
  slot : forall statement, statement ∈ statements ->
    forall kind index, statement.payload.slot? = some (kind, index) ->
      index.toNat < body.slotCount kind

/-- What decoding asks, by what it comes to. -/
inductive Consults (body : MethodBody) (catalog : Catalog) :
    Except DecodeError Listing -> List Consultation -> Prop where
  | tooLarge :
      codeLengthLimit ≤ body.code.length ->
      Consults body catalog (.error (.bodyTooLarge body.code.length)) []
  | complete {listing : Listing} {consultations : List Consultation} :
      List.Forall₂ body.Answers consultations
        (listing.toList.filter Instruction.hasToken) ->
      Consults body catalog (.ok listing) consultations
  | refused {front : List Statement} {statement : Statement}
      {consultations : List Consultation} {query : Query} {error : ResolveError} :
      body.Begins catalog (front ++ [statement]) ->
      body.Covers front consultations ->
      body.queryAt? (codeOf front).length statement.opcode = some query ->
      Consults body catalog (.error (.symbol (codeOf front).length error))
        (consultations ++ [⟨query, .error error⟩])
  | stopped {front : List Statement} {consultations : List Consultation}
      {error : DecodeError} :
      body.Begins catalog front ->
      codeOf front ≠ body.code ->
      (forall statement, ¬ body.Begins catalog (front ++ [statement])) ->
      body.Covers front consultations ->
      (forall offset cause, error ≠ .symbol offset cause) ->
      Consults body catalog (.error error) consultations

end MethodBody

/-!
# One segment

A segment with a token takes one consultation. All others take none, and only a slot can keep
them from having an operand.
-/

theorem Payload.slot?_of_query? {context : Option GenericContext} {payload : Payload}
    {query : Query} (h : payload.query? context = some query) :
    payload.slot? = Option.none := by
  cases payload with
  | string token | member token | signature token => rfl
  | _ => cases h

namespace Segment

inductive Consults (body : MethodBody) (segment : Segment) :
    Except DecodeError Operand -> List Consultation -> Prop where
  | answered {query : Query} {answer : query.Answer} :
      segment.payload.query? body.context = some query ->
      Consults body segment (.ok (query.operand answer)) [⟨query, .ok answer⟩]
  | refused {query : Query} {error : ResolveError} :
      segment.payload.query? body.context = some query ->
      Consults body segment (.error (.symbol segment.offset error)) [⟨query, .error error⟩]
  | quiet {operand : Operand} :
      segment.payload.query? body.context = none ->
      (forall kind index, segment.payload.slot? = some (kind, index) ->
        index.toNat < body.slotCount kind) ->
      Consults body segment (.ok operand) []
  | slotOutOfRange {kind : SlotKind} {index : UInt16} :
      segment.payload.query? body.context = none ->
      segment.payload.slot? = some (kind, index) ->
      body.slotCount kind ≤ index.toNat ->
      Consults body segment
        (.error (.slotOutOfRange kind index (body.slotCount kind) segment.offset)) []

variable {body : MethodBody} {segment : Segment} {σ : Type}
  {respond : Program.Responder dialogueInterface σ}

theorem consults_symbolOperand {query : Query}
    (hquery : segment.payload.query? body.context = some query) (state : σ) :
    segment.Consults body
      ((segment.symbolOperand query query.operand).run respond state).1
      (Dialogue.consultations respond (segment.symbolOperand query query.operand) state) := by
  rw [symbolOperand, Program.run_bind, Dialogue.consultations_bind,
    Dialogue.consultations_resolve]
  have hrun : ((Dialogue.resolve query).run respond state).1 =
      (respond (.resolve query) state).1 := rfl
  rw [hrun]
  cases (respond (.resolve query) state).1 with
  | ok answer => exact Consults.answered hquery
  | error error => exact Consults.refused hquery

theorem consults_localOperand {index : UInt16}
    (hquery : segment.payload.query? body.context = none)
    (hslot : segment.payload.slot? = some (.localVariable, index)) :
    segment.Consults body (segment.localOperand body index) [] := by
  cases houtcome : segment.localOperand body index with
  | ok operand =>
      rcases localOperand_eq_ok_iff.mp houtcome with ⟨slot, hget, -⟩
      refine Consults.quiet hquery ?_
      intro kind found hfound
      cases hslot.symm.trans hfound
      exact (List.getElem?_eq_some_iff.mp hget).1
  | error error =>
      have hlacks : Lacks (fun _ _ => False) body segment error :=
        lacks_of_localOperand hslot houtcome
      cases hlacks with
      | symbol _ hreply => exact hreply.elim
      | slotOutOfRange hfound hcount => exact Consults.slotOutOfRange hquery hfound hcount

theorem consults_argumentOperand {index : UInt16}
    (hquery : segment.payload.query? body.context = none)
    (hslot : segment.payload.slot? = some (.argument, index)) :
    segment.Consults body (segment.argumentOperand body index) [] := by
  cases houtcome : segment.argumentOperand body index with
  | ok operand =>
      rcases argumentOperand_eq_ok_iff.mp houtcome with ⟨argument, hget, -⟩
      refine Consults.quiet hquery ?_
      intro kind found hfound
      cases hslot.symm.trans hfound
      have hindex := (List.getElem?_eq_some_iff.mp hget).1
      rw [MethodBody.length_arguments] at hindex
      exact hindex
  | error error =>
      have hlacks : Lacks (fun _ _ => False) body segment error :=
        lacks_of_argumentOperand hslot houtcome
      cases hlacks with
      | symbol _ hreply => exact hreply.elim
      | slotOutOfRange hfound hcount => exact Consults.slotOutOfRange hquery hfound hcount

theorem consults_operand (segment : Segment) (body : MethodBody)
    (respond : Program.Responder dialogueInterface σ) (state : σ) :
    segment.Consults body ((segment.operand body).run respond state).1
      (Dialogue.consultations respond (segment.operand body) state) := by
  unfold Segment.operand
  cases hpayload : segment.payload with
  | string token | member token | signature token =>
      exact consults_symbolOperand (by rw [hpayload]; rfl) state
  | shortLocalSlot index | localSlot index =>
      exact consults_localOperand (by rw [hpayload]; rfl) (by rw [hpayload]; rfl)
  | shortArgumentSlot index | argumentSlot index =>
      exact consults_argumentOperand (by rw [hpayload]; rfl) (by rw [hpayload]; rfl)
  | _ =>
      refine Consults.quiet (by rw [hpayload]; rfl) ?_
      intro kind index hslot
      rw [hpayload] at hslot
      cases hslot

end Segment

/-!
# All segments
-/

namespace Segment

/-- The operands of segments and the consultations for them, up to the first segment that has
no operand. -/
inductive ConsultAll (body : MethodBody) :
    List Segment -> Except DecodeError (List Operand) -> List Consultation -> Prop where
  | done : ConsultAll body [] (.ok []) []
  | next {segment : Segment} {rest : List Segment} {operand : Operand}
      {outcome : Except DecodeError (List Operand)} {first others : List Consultation} :
      segment.Consults body (.ok operand) first ->
      ConsultAll body rest outcome others ->
      ConsultAll body (segment :: rest) (outcome.map (List.cons operand)) (first ++ others)
  | stop {segment : Segment} {rest : List Segment} {error : DecodeError}
      {first : List Consultation} :
      segment.Consults body (.error error) first ->
      ConsultAll body (segment :: rest) (.error error) first

theorem exists_consultAll_extend {σ : Type} (body : MethodBody)
    (respond : Program.Responder dialogueInterface σ) (segments : List Segment)
    (listing : Listing) (state : σ) :
    exists outcome : Except DecodeError (List Operand),
      ConsultAll body segments outcome
          (Dialogue.consultations respond (listing.extend body segments) state) ∧
        ((listing.extend body segments).run respond state).1 =
          outcome.map (fun operands =>
            (List.zipWith Segment.draft segments operands).foldl Listing.pushDraft
              listing) := by
  induction segments generalizing listing state with
  | nil => exact ⟨.ok [], ConsultAll.done, rfl⟩
  | cons segment rest ih =>
      have hfirst := consults_operand segment body respond state
      rw [Listing.extend, Program.run_bind, Dialogue.consultations_bind]
      cases houtcome : ((segment.operand body).run respond state).1 with
      | error error =>
          rw [houtcome] at hfirst
          simp only [Dialogue.consultations_done, List.append_nil]
          exact ⟨.error error, ConsultAll.stop hfirst, rfl⟩
      | ok operand =>
          rw [houtcome] at hfirst
          simp only [Program.run_bind, Dialogue.consultations_bind,
            Dialogue.consultations_report, List.nil_append]
          rcases ih (listing.push segment.offset segment.opcode operand) _ with
            ⟨outcome, hrest, hrun⟩
          refine ⟨_, ConsultAll.next hfirst hrest, ?_⟩
          rw [hrun]
          cases outcome with
          | ok operands => rfl
          | error error => rfl

variable {body : MethodBody} {segments : List Segment} {operands : List Operand}
  {consultations : List Consultation}

theorem ConsultAll.queries_eq {outcome : Except DecodeError (List Operand)}
    (h : ConsultAll body segments outcome consultations) (hok : outcome = .ok operands) :
    consultations.map Consultation.query =
        segments.filterMap (fun segment => segment.payload.query? body.context) ∧
      (forall consultation, consultation ∈ consultations ->
        consultation.outcome.isOk = true) ∧
      forall segment, segment ∈ segments ->
        forall kind index, segment.payload.slot? = some (kind, index) ->
          index.toNat < body.slotCount kind := by
  induction h generalizing operands with
  | done => exact ⟨rfl, by simp, by simp⟩
  | stop => cases hok
  | @next segment rest operand outcome first others hfirst _ ih =>
      rcases outcome with _ | found
      · cases hok
      · rcases ih rfl with ⟨hqueries, hall, hslots⟩
        cases hfirst with
        | answered hquery =>
            refine ⟨?_, ?_, ?_⟩
            · simp only [List.filterMap_cons, hquery, ← hqueries]
              rfl
            · exact List.forall_mem_cons.mpr ⟨rfl, hall⟩
            · refine List.forall_mem_cons.mpr ⟨?_, hslots⟩
              intro kind index hslot
              rw [Payload.slot?_of_query? hquery] at hslot
              cases hslot
        | quiet hquery hslot =>
            refine ⟨?_, hall, List.forall_mem_cons.mpr ⟨hslot, hslots⟩⟩
            simp only [List.filterMap_cons, hquery, ← hqueries]
            rfl

theorem ConsultAll.exists_of_error {outcome : Except DecodeError (List Operand)}
    (h : ConsultAll body segments outcome consultations) {error : DecodeError}
    (herror : outcome = .error error) :
    exists before : List Segment, exists segment : Segment, exists after : List Segment,
      exists found : List Operand, exists asked last : List Consultation,
        segments = before ++ segment :: after ∧ ConsultAll body before (.ok found) asked ∧
          segment.Consults body (.error error) last ∧ consultations = asked ++ last := by
  induction h with
  | done => cases herror
  | @stop segment rest _ first hfirst =>
      cases herror
      exact ⟨[], segment, rest, [], [], first, rfl, ConsultAll.done, hfirst, rfl⟩
  | @next segment rest operand outcome first others hfirst _ ih =>
      rcases outcome with cause | _
      · cases herror
        rcases ih rfl with ⟨before, failing, after, found, asked, last, rfl, hbefore,
          hfailing, rfl⟩
        exact ⟨segment :: before, failing, after, operand :: found, first ++ asked, last,
          rfl, ConsultAll.next hfirst hbefore, hfailing, (List.append_assoc _ _ _).symm⟩
      · cases herror

end Segment

/-!
# Queries and bytes
-/

theorem OperandFormat.isSome_query? (context : Option GenericContext) (token : Token)
    (format : OperandFormat) : (format.query? context token).isSome = format.isToken := by
  cases format <;> rfl

theorem OperandFormat.query?_of_isToken_eq_false {format : OperandFormat}
    (h : format.isToken = false) (context : Option GenericContext) (token : Token) :
    format.query? context token = Option.none := by
  rw [← Option.not_isSome_iff_eq_none, isSome_query?, h]
  exact Bool.false_ne_true

theorem OperandFormat.width?_of_isToken {format : OperandFormat}
    (h : format.isToken = true) : format.width? = some 4 := by
  cases format with
  | string | type | method | field | member | signature => rfl
  | _ => cases h

theorem Payload.query?_of_suits {payload : Payload} {opcode : Opcode}
    (h : payload.Suits opcode) (context : Option GenericContext) :
    payload.query? context =
      opcode.format.query? context ⟨Word.ofBytes UInt32 payload.bytes⟩ := by
  rcases opcode with ⟨name, value, size, format, group⟩
  cases format with
  | none =>
      have hpayload : payload = .none := h
      rw [hpayload]
      rfl
  | shortInt =>
      rcases exists_of_suits_shortInt h with ⟨signed, rfl⟩ | ⟨unsigned, rfl⟩
      · rfl
      · rfl
  | phi => cases h
  | string | type | method | field | member | signature =>
      rcases h with ⟨token, rfl⟩
      simp only [query?, bytes, Word.ofBytes_toBytes]
      rfl
  | _ =>
      rcases h with ⟨value, rfl⟩
      rfl

namespace MethodBody

variable {body : MethodBody} {catalog : Catalog} {statements : List Statement}

theorem isSome_queryAt? (body : MethodBody) (offset : Nat) (opcode : Opcode) :
    (body.queryAt? offset opcode).isSome = opcode.format.isToken :=
  OperandFormat.isSome_query? _ _ _

theorem queryAt?_of_isPrefix (hcatalog : catalog.Coherent) {statement : Statement}
    (hlegal : statement.Legal catalog) {offset : Nat}
    (hahead : statement.bytes <+: body.code.drop offset) :
    body.queryAt? offset statement.opcode = statement.payload.query? body.context := by
  rw [Payload.query?_of_suits hlegal.suits, queryAt?]
  cases htoken : statement.opcode.format.isToken with
  | false =>
      rw [OperandFormat.query?_of_isToken_eq_false htoken,
        OperandFormat.query?_of_isToken_eq_false htoken]
  | true =>
      have hwidth := Payload.length_bytes_of_suits hlegal.suits
        (OperandFormat.width?_of_isToken htoken)
      rcases hlegal.lists with ⟨code, hlookup⟩
      have hsize := Opcode.length_bytes_of_code? (hcatalog code statement.opcode hlookup)
      rcases hahead with ⟨rest, hrest⟩
      rw [Statement.bytes, List.append_assoc] at hrest
      rw [← List.drop_drop, ← hrest, List.drop_left' hsize, List.take_left' hwidth]

theorem queryAt?_of_mem_layOut (hcatalog : catalog.Coherent)
    (hbegin : codeOf statements <+: body.code)
    (hlegal : forall statement, statement ∈ statements -> statement.Legal catalog)
    {segment : Segment} (hsegment : segment ∈ layOut 0 statements) :
    body.queryAt? segment.offset segment.opcode =
      segment.payload.query? body.context := by
  rcases List.getElem?_of_mem hsegment with ⟨index, hindex⟩
  rw [Statement.getElem?_layOut, Nat.zero_add] at hindex
  rcases Option.map_eq_some_iff.mp hindex with ⟨statement, hstatement, rfl⟩
  apply queryAt?_of_isPrefix hcatalog (hlegal statement (List.mem_of_getElem? hstatement))
  exact (Statement.bytes_prefix_drop hstatement).trans (hbegin.drop _)

theorem queries_of_isPrefix (hcatalog : catalog.Coherent)
    (hbegin : codeOf statements <+: body.code)
    (hlegal : forall statement, statement ∈ statements -> statement.Legal catalog) :
    body.queries statements =
      (layOut 0 statements).filterMap (fun segment =>
        segment.payload.query? body.context) :=
  List.filterMap_congr (fun _ hsegment => queryAt?_of_mem_layOut hcatalog hbegin hlegal hsegment)

end MethodBody

/-!
# Answers and operands
-/

structure Draft.Becomes (draft : Draft) (instruction : Instruction) : Prop where
  offset_eq : instruction.offset = draft.offset
  opcode_eq : instruction.opcode = draft.opcode
  operand_eq : draft.opcode.format.isBranch = false -> instruction.operand = draft.operand

theorem Listing.forall₂_becomes_ofDrafts (drafts : List Draft) :
    List.Forall₂ Draft.Becomes drafts (ofDrafts drafts).resolveTargets.toList := by
  rw [List.forall₂_iff_get]
  constructor
  · show drafts.length = Listing.length _
    rw [length_resolveTargets, length_ofDrafts]
  · intro index hdrafts hinstructions
    have hget : (ofDrafts drafts).resolveTargets.get? index =
        some ((ofDrafts drafts).resolveTargets.toList[index]) := by
      rw [← List.getElem?_eq_getElem hinstructions, getElem?_toList]
    rw [get?_resolveTargets, get?_ofDrafts, List.getElem?_eq_getElem hdrafts, Option.map_some,
      Option.map_some, Option.some_inj] at hget
    rw [List.get_eq_getElem, List.get_eq_getElem, ← hget]
    constructor
    · rw [Instruction.offset_mapTargets]
      rfl
    · rw [Instruction.opcode_mapTargets]
      rfl
    · intro hbranch
      rw [Instruction.operand_mapTargets]
      exact if_neg (Bool.eq_false_iff.mp hbranch)

theorem OperandFormat.isBranch_of_isToken {format : OperandFormat}
    (h : format.isToken = true) : format.isBranch = false := by
  cases format with
  | string | type | method | field | member | signature => rfl
  | _ => cases h

theorem Segment.Consults.forall₂_answers {body : MethodBody} {segment : Segment}
    {operand : Operand} {consultations : List Consultation}
    (h : segment.Consults body (.ok operand) consultations)
    (hquery :
      body.queryAt? segment.offset segment.opcode = segment.payload.query? body.context)
    {instruction : Instruction} (hbecomes : (segment.draft operand).Becomes instruction) :
    List.Forall₂ body.Answers consultations ([instruction].filter Instruction.hasToken) := by
  have hopcode : instruction.opcode = segment.opcode := hbecomes.opcode_eq
  have hoffset : instruction.offset = segment.offset := hbecomes.offset_eq
  have htoken := body.isSome_queryAt? segment.offset segment.opcode
  rw [hquery, ← hopcode] at htoken
  cases h with
  | @answered query answer hsome =>
      rw [hsome] at htoken
      have hkept : instruction.hasToken = true := htoken.symm
      have hoperand : instruction.operand = query.operand answer := by
        apply hbecomes.operand_eq
        rw [← hbecomes.opcode_eq]
        exact OperandFormat.isBranch_of_isToken hkept
      rw [List.filter_cons_of_pos hkept]
      apply List.forall₂_cons.mpr
      refine ⟨⟨?_, ?_⟩, List.Forall₂.nil⟩
      · rw [hopcode, hoffset, hquery, hsome]
      · rw [hoperand]
        rfl
  | quiet hnone _ =>
      rw [hnone] at htoken
      have hdropped : ¬ instruction.hasToken = true := Bool.not_eq_true _ ▸ htoken.symm
      rw [List.filter_cons_of_neg hdropped]
      exact List.Forall₂.nil

/-- The consultations and the instructions with tokens go together one by one. -/
theorem Segment.ConsultAll.forall₂_answers {body : MethodBody} {segments : List Segment}
    {outcome : Except DecodeError (List Operand)} {consultations : List Consultation}
    (h : ConsultAll body segments outcome consultations) {operands : List Operand}
    (hok : outcome = .ok operands)
    (hquery : forall segment, segment ∈ segments ->
      body.queryAt? segment.offset segment.opcode = segment.payload.query? body.context)
    {instructions : List Instruction}
    (hbecomes : List.Forall₂ Draft.Becomes (List.zipWith Segment.draft segments operands)
      instructions) :
    List.Forall₂ body.Answers consultations
      (instructions.filter Instruction.hasToken) := by
  induction h generalizing operands instructions with
  | done =>
      cases hbecomes
      exact List.Forall₂.nil
  | stop => cases hok
  | @next segment rest operand outcome first others hfirst _ ih =>
      rcases outcome with _ | found
      · cases hok
      · cases hok
        rcases List.forall_mem_cons.mp hquery with ⟨hqueryFirst, hqueryRest⟩
        rw [List.zipWith_cons_cons] at hbecomes
        cases hbecomes with
        | @cons _ instruction _ instructions hinstruction hrest =>
            have hanswers := hfirst.forall₂_answers hqueryFirst hinstruction
            have hothers := ih rfl hqueryRest hrest
            rw [← List.singleton_append, List.filter_append]
            exact List.rel_append hanswers hothers

/-!
# Matching targets
-/

namespace Listing

variable {σ : Type} (respond : Program.Responder dialogueInterface σ)

theorem consultations_settle (listing : Listing) (state : σ) :
    Dialogue.consultations respond listing.settle state = [] := by
  rw [settle, Dialogue.consultations_bind, Dialogue.consultations_reportAll]
  rfl

theorem run_settle (listing : Listing) (state : σ) :
    (listing.settle.run respond state).1 = listing.resolveTargets := by
  rw [settle, Program.run_bind]
  rfl

end Listing

/-!
# Method bodies
-/

theorem Statement.exists_of_layOut_eq {start : Nat} {statements : List Statement}
    {before after : List Segment} {segment : Segment}
    (h : layOut start statements = before ++ segment :: after) :
    exists front : List Statement, exists statement : Statement, exists rest : List Statement,
      statements = front ++ statement :: rest ∧ before = layOut start front ∧
        segment = statement.placed (start + (codeOf front).length) := by
  induction before generalizing start statements with
  | nil =>
      cases statements with
      | nil => cases h
      | cons statement rest =>
          rcases List.cons.inj h with ⟨hsegment, -⟩
          exact ⟨[], statement, rest, rfl, rfl, hsegment.symm⟩
  | cons first before ih =>
      cases statements with
      | nil => cases h
      | cons statement rest =>
          rcases List.cons.inj h with ⟨rfl, hrest⟩
          rcases ih hrest with ⟨front, found, others, rfl, rfl, rfl⟩
          refine ⟨statement :: front, found, others, rfl, rfl, ?_⟩
          rw [codeOf_cons, List.length_append, Nat.add_assoc]

namespace Statement

variable {front : List Statement} {statement : Statement} {code : List UInt8}

theorem codeOf_concat (front : List Statement) (statement : Statement) :
    codeOf (front ++ [statement]) = codeOf front ++ statement.bytes := by
  rw [codeOf_append, codeOf_cons, codeOf_nil, List.append_nil]

theorem isPrefix_concat {rest : List Statement}
    (h : codeOf (front ++ statement :: rest) <+: code) :
    codeOf (front ++ [statement]) <+: code := by
  rw [List.append_cons, codeOf_append] at h
  exact (List.prefix_append _ _).trans h

theorem isPrefix_of_concat (h : codeOf (front ++ [statement]) <+: code) :
    codeOf front <+: code := by
  rw [codeOf_append] at h
  exact (List.prefix_append _ _).trans h

theorem bytes_isPrefix_drop (h : codeOf (front ++ [statement]) <+: code) :
    statement.bytes <+: code.drop (codeOf front).length := by
  have hdrop := h.drop (codeOf front).length
  rw [codeOf_concat, List.drop_left] at hdrop
  exact hdrop

theorem codeOf_ne_of_concat (h : codeOf (front ++ [statement]) <+: code) :
    codeOf front ≠ code := by
  intro hcode
  have hle := h.length_le
  rw [← hcode, codeOf_concat, List.length_append] at hle
  exact Nat.not_lt.mpr hle (Nat.lt_add_of_pos_right statement.length_bytes_pos)

end Statement

namespace MethodBody

variable {body : MethodBody} {catalog : Catalog} {front : List Statement}
  {statement : Statement}

theorem Begins.isPrefix_drop (h : body.Begins catalog (front ++ [statement])) :
    statement.bytes <+: body.code.drop (codeOf front).length :=
  Statement.bytes_isPrefix_drop h.isPrefix

theorem Begins.legal_last (h : body.Begins catalog (front ++ [statement])) :
    statement.Legal catalog :=
  h.legal statement (List.mem_append_right front List.mem_cons_self)

theorem Begins.concat (h : body.Begins catalog front) (hlegal : statement.Legal catalog)
    (hbegin : codeOf (front ++ [statement]) <+: body.code)
    (hslot : forall kind index, statement.payload.slot? = some (kind, index) ->
      index.toNat < body.slotCount kind) : body.Begins catalog (front ++ [statement]) where
  isPrefix := hbegin
  legal := List.forall_mem_append.mpr ⟨h.legal, List.forall_mem_singleton.mpr hlegal⟩
  slot := List.forall_mem_append.mpr ⟨h.slot, List.forall_mem_singleton.mpr hslot⟩

theorem begins_of_consultAll (hcatalog : catalog.Coherent)
    (hbegin : codeOf front <+: body.code)
    (hlegal : forall statement, statement ∈ front -> statement.Legal catalog)
    {operands : List Operand} {consultations : List Consultation}
    (h : Segment.ConsultAll body (layOut 0 front) (.ok operands) consultations) :
    body.Begins catalog front ∧ body.Covers front consultations := by
  rcases h.queries_eq rfl with ⟨hqueries, hall, hslots⟩
  refine ⟨⟨hbegin, hlegal, ?_⟩, ⟨?_, hall⟩⟩
  · rw [← Statement.map_statement_layOut 0 front]
    exact List.forall_mem_map.mpr hslots
  · rw [hqueries, queries_of_isPrefix hcatalog hbegin hlegal]

theorem consults_of_consultAll_error (hcatalog : catalog.Coherent)
    {statements : List Statement} (hbegin : codeOf statements <+: body.code)
    (hlegal : forall statement, statement ∈ statements -> statement.Legal catalog)
    {consultations : List Consultation} {error : DecodeError}
    (h : Segment.ConsultAll body (layOut 0 statements) (.error error) consultations) :
    body.Consults catalog (.error error) consultations := by
  rcases h.exists_of_error rfl with
    ⟨_, _, _, operands, asked, last, hsegments, hbefore, hlast, rfl⟩
  rcases Statement.exists_of_layOut_eq hsegments with ⟨front, statement, rest, rfl, rfl, rfl⟩
  rw [Nat.zero_add] at hlast
  have hlegalFront : forall other, other ∈ front -> other.Legal catalog :=
    fun other hother => hlegal other (List.mem_append_left _ hother)
  have hlegalLast : statement.Legal catalog :=
    hlegal statement (List.mem_append_right _ List.mem_cons_self)
  have hthrough := Statement.isPrefix_concat hbegin
  have hfront := Statement.isPrefix_of_concat hthrough
  rcases begins_of_consultAll hcatalog hfront hlegalFront hbefore with
    ⟨hbegins, hcovers⟩
  cases hlast with
  | refused hquery =>
      have hnone : statement.payload.slot? = none := Payload.slot?_of_query? hquery
      have hbeginsLast : body.Begins catalog (front ++ [statement]) := by
        apply hbegins.concat hlegalLast hthrough
        intro kind index hslot
        rw [hnone] at hslot
        cases hslot
      apply Consults.refused hbeginsLast hcovers
      rw [queryAt?_of_isPrefix hcatalog hlegalLast hbeginsLast.isPrefix_drop]
      exact hquery
  | @slotOutOfRange kind index _ hslot hcount =>
      rw [List.append_nil]
      have hnext : forall other, ¬ body.Begins catalog (front ++ [other]) := by
        intro other hother
        have hsame := Statement.eq_of_isPrefix hcatalog hother.legal_last hlegalLast
          hother.isPrefix_drop (Statement.bytes_isPrefix_drop hthrough)
        rw [hsame] at hother
        have hlt := hother.slot statement (List.mem_append_right _ List.mem_cons_self) kind
          index hslot
        exact Nat.not_lt.mpr hcount hlt
      exact Consults.stopped hbegins (Statement.codeOf_ne_of_concat hthrough) hnext hcovers
        (fun _ _ => DecodeError.noConfusion)

theorem consults_of_broken (hcatalog : catalog.Coherent) {statements : List Statement}
    {next : Cursor} {offset : Nat} {fault : SegmentFault}
    (hconsumes : (body.cursorAt 0).Consumes (codeOf statements) next)
    (hbroken : Cut.Ends catalog next (some (offset, fault)))
    {consultations : List Consultation} (hbegins : body.Begins catalog statements)
    (hcovers : body.Covers statements consultations) :
    body.Consults catalog (.error (.ofFault offset fault)) consultations := by
  cases eq_cursorAt_of_consumes hconsumes
  cases hbroken with
  | broken hmore hread =>
      have hlt : (codeOf statements).length < body.code.length := by
        simpa [Cursor.atEnd, cursorAt] using hmore
      refine Consults.stopped hbegins ?_ ?_ hcovers ?_
      · intro hcode
        rw [hcode] at hlt
        exact Nat.lt_irrefl _ hlt
      · intro statement hstatement
        rcases exists_read_cursorAt_eq_ok hcatalog (Nat.le_of_lt hlt) hstatement.legal_last
          hstatement.isPrefix_drop with ⟨last, hfound⟩
        rw [hfound] at hread
        cases hread
      · intro place cause hsymbol
        cases fault <;> cases hsymbol

/-- Decoding asks once for every instruction with a token, in order, with the word behind the
code of the opcode as the token, and uses each answer for the instruction it was asked for. It
asks nothing behind the first query that fails or the first place that is no instruction, and
nothing while it matches targets. -/
theorem consults_decode {definitions : List Opcode} {σ : Type}
    (hcatalog : Catalog.ofDefinitions definitions = .ok catalog) (body : MethodBody)
    (respond : Program.Responder dialogueInterface σ) (state : σ) :
    body.Consults catalog ((body.decode catalog).run respond state).1
        (Dialogue.consultations respond (body.decode catalog) state) ∧
      forall (listing : Listing) (later : σ),
        Dialogue.consultations respond listing.settle later = [] := by
  have hcoherent := Catalog.coherent_ofDefinitions hcatalog
  refine ⟨?_, fun listing later => listing.consultations_settle respond later⟩
  unfold decode
  by_cases hlength : codeLengthLimit ≤ body.code.length
  · rw [if_pos hlength]
    exact Consults.tooLarge hlength
  · rw [if_neg hlength, Program.run_bind, Dialogue.consultations_bind]
    rcases Cut.exists_statements_of_ofCode hcoherent body.code with
      ⟨statements, next, hlegal, hconsumes, hsegments, hends⟩
    have hbegin := Cut.isPrefix_of_consumes hconsumes
    rw [hsegments]
    rcases Segment.exists_consultAll_extend body respond (layOut 0 statements)
      Listing.empty state with ⟨outcome, hall, hrun⟩
    rw [hrun]
    cases outcome with
    | error error =>
        rw [Except.map, Dialogue.consultations_done, List.append_nil]
        exact consults_of_consultAll_error hcoherent hbegin hlegal hall
    | ok operands =>
        rcases begins_of_consultAll hcoherent hbegin hlegal hall with ⟨hbegins, hcovers⟩
        cases hfault : (Cut.ofCode catalog body.code).fault with
        | some place =>
            rw [Except.map, Dialogue.consultations_done, List.append_nil]
            have hbroken : Cut.Ends catalog next (some (place.1, place.2)) := by
              rw [← hfault]
              exact hends
            exact consults_of_broken hcoherent hconsumes hbroken hbegins hcovers
        | none =>
            rw [Except.map]
            simp only [Dialogue.consultations_bind, Listing.consultations_settle,
              Dialogue.consultations_done, List.append_nil, Program.run_bind,
              Listing.run_settle]
            apply Consults.complete
            exact hall.forall₂_answers rfl
              (fun _ => queryAt?_of_mem_layOut hcoherent hbegin hlegal)
              (Listing.forall₂_becomes_ofDrafts _)

def dictate : Program.Responder dialogueInterface (List String)
  | .resolve (.string _), text :: rest => (.ok text, rest)
  | .resolve (.string token), [] => (.error { token := token, failure := .noSuchString }, [])
  | .resolve (.member token _), texts =>
      (.error { token := token, failure := .noSuchMember }, texts)
  | .resolve (.signature token), texts =>
      (.error { token := token, failure := .noSuchSignature }, texts)
  | .report _, texts => ((), texts)

def loadingBody : MethodBody :=
  MethodBody.ofCode
    [0x72, 0x01, 0x00, 0x00, 0x70, 0x72, 0x01, 0x00, 0x00, 0x70, 0x72, 0x01, 0x00, 0x00, 0x70]

theorem consults_decode_dictate :
    exists front : List Statement, exists asked : List Consultation, exists query : Query,
      (codeOf front).length = 5 ∧ loadingBody.Covers front asked ∧
        Dialogue.consultations dictate (loadingBody.decode .standard) ["once"] =
          asked ++ [⟨query, .error { token := ⟨0x70000001⟩, failure := .noSuchString }⟩] := by
  have hresult : ((loadingBody.decode .standard).run dictate ["once"]).1 =
      .error (.symbol 5 { token := ⟨0x70000001⟩, failure := .noSuchString }) := by
    decide +kernel
  have hconsults := (consults_decode Catalog.ofDefinitions_standardSet loadingBody dictate
    ["once"]).1
  generalize hall : Dialogue.consultations dictate (loadingBody.decode .standard) ["once"] =
    consultations at hconsults
  generalize houtcome : ((loadingBody.decode .standard).run dictate ["once"]).1 = outcome
    at hconsults
  cases hconsults with
  | tooLarge _ => cases houtcome.symm.trans hresult
  | complete _ => cases houtcome.symm.trans hresult
  | stopped _ _ _ _ hother =>
      have herror := Except.error.inj (houtcome.symm.trans hresult)
      exact absurd herror (hother _ _)
  | @refused front statement asked query error _ hcovers _ =>
      rcases DecodeError.symbol.inj (Except.error.inj (houtcome.symm.trans hresult)) with
        ⟨hoffset, rfl⟩
      exact ⟨front, asked, query, hoffset, hcovers, rfl⟩

end MethodBody

end CilDisasm
