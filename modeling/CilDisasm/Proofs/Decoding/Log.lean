import CilDisasm.Proofs.Decoding.Consultation
import CilDisasm.Proofs.Listing.Settlement

/-!
# The log of decoding

What decoding reports can be told from what it comes to. Every instruction is reported when
it has been decoded, before its targets are matched, and every target that nothing starts at
is reported in the end. Where decoding fails, the reports are those of the instructions in
front of the place where it fails, and this is the end of the log.
-/

namespace CilDisasm

open Statement (codeOf layOut)

/-- A source of symbols with a memory. It does not report anything, and reports do not reach
it. -/
abbrev Recollection (σ : Type) : Type :=
  (query : Query) -> σ -> query.Outcome × σ

namespace Recollection

variable {σ : Type} (recollection : Recollection σ)

def respond : Program.Responder dialogueInterface σ
  | .resolve query, state => recollection query state
  | .report _, state => ((), state)

def resolver (state : σ) : Resolver :=
  fun query => (recollection query state).1

end Recollection

abbrev LogMessage : Type :=
  EventLevel × String

def Event.logged (event : Event) : LogMessage :=
  (event.level, event.message)

def Instruction.unlabelled (instruction : Instruction) : Instruction :=
  { instruction with
    operand := instruction.operand.mapTargets fun target => .unresolved target.offset }

def Target.warning? : Target -> Option LogMessage
  | .resolved _ => none
  | .unresolved place => some (.debug, s!"branch target {place} does not start an instruction")

namespace Listing

/-- One message for each instruction, as it was before its targets were matched. -/
def traces (listing : Listing) : List LogMessage :=
  listing.toList.map fun instruction => (.trace, instruction.unlabelled.text)

/-- One message for each target without a label, in the order of the listing and, within a
jump table, of the table. -/
def warnings (listing : Listing) : List LogMessage :=
  listing.toList.flatMap fun instruction =>
    instruction.operand.targets.filterMap Target.warning?

end Listing

/-- What is logged by decoding, by what it comes to. Decoding fails with the bytes at `start`:
what is in front of them decodes, and with the memory that is left by then these do not. -/
inductive MethodBody.Logs {σ : Type} (body : MethodBody) (catalog : Catalog)
    (recollection : Recollection σ) (state : σ) :
    Except DecodeError Listing -> List LogMessage -> Prop where
  | tooLarge :
      codeLengthLimit ≤ body.code.length ->
      Logs body catalog recollection state (.error (.bodyTooLarge body.code.length)) []
  | complete {listing : Listing} :
      Logs body catalog recollection state (.ok listing)
        (listing.traces ++ listing.warnings)
  | failed {start : Nat} {front : Listing} {later : σ} {error : DecodeError} :
      body.code.length < codeLengthLimit ->
      start < body.code.length ->
      ((body.withCode (body.code.take start)).decode catalog).run recollection.respond
        state = (.ok front, later) ->
      body.FailsAt (.ofResolver (recollection.resolver later)) catalog start error ->
      Logs body catalog recollection state (.error error) front.traces

/-!
# Operands

Looking up an operand reports nothing, and it takes one answer at most.
-/

namespace Segment

variable {σ : Type} (segment : Segment) (body : MethodBody)

theorem reports_symbolOperand (respond : Program.Responder dialogueInterface σ)
    (query : Query) (make : query.Answer -> Operand) (state : σ) :
    Dialogue.reports respond (segment.symbolOperand query make) state = [] := by
  rw [symbolOperand, Dialogue.reports_bind, Dialogue.reports_resolve, List.nil_append]
  split <;> rfl

theorem reports_operand (respond : Program.Responder dialogueInterface σ) (state : σ) :
    Dialogue.reports respond (segment.operand body) state = [] := by
  unfold operand
  cases segment.payload with
  | string token | member token | signature token => exact reports_symbolOperand ..
  | _ => rfl

theorem returns_run_symbolOperand (recollection : Recollection σ) (query : Query)
    (make : query.Answer -> Operand) (state : σ) :
    Dialogue.Returns (.ofResolver (recollection.resolver state))
      (segment.symbolOperand query make)
      ((segment.symbolOperand query make).run recollection.respond state).1 := by
  refine returns_symbolOperand_iff.mpr ⟨(recollection query state).1, rfl, ?_⟩
  rw [symbolOperand, Program.run_bind]
  have hrun : ((Dialogue.resolve query).run recollection.respond state).1 =
      (recollection query state).1 := rfl
  rw [hrun]
  cases (recollection query state).1 with
  | ok answer => rfl
  | error error => rfl

theorem returns_run_operand (recollection : Recollection σ) (state : σ) :
    Dialogue.Returns (.ofResolver (recollection.resolver state)) (segment.operand body)
      ((segment.operand body).run recollection.respond state).1 := by
  unfold operand
  cases segment.payload with
  | string token | member token | signature token => exact returns_run_symbolOperand ..
  | _ => exact Program.Returns.done _

end Segment

/-!
# The first pass
-/

namespace Listing

variable {σ : Type} {body : MethodBody}

def decodedMessages (listing : Listing) : List LogMessage :=
  listing.toList.map fun instruction => (.trace, instruction.text)

theorem decodedMessages_push (listing : Listing) (offset : Nat) (opcode : Opcode)
    (operand : Operand) :
    (listing.push offset opcode operand).decodedMessages =
      listing.decodedMessages ++
        [(.trace, (listing.appended offset opcode operand).text)] := by
  have hdrafts : forall other : Listing,
      other.decodedMessages =
        (other.toList.map Instruction.draft).map
          fun draft => (.trace, (draft.instruction 0 0).text) := by
    intro other
    rw [List.map_map]
    rfl
  rw [hdrafts, hdrafts, toList_map_draft_push, List.map_append]
  rfl

section Extend

variable (respond : Program.Responder dialogueInterface σ) {segment : Segment}
  {segments : List Segment} {listing : Listing} {state middle : σ}

theorem extend_cons_of_error (listing : Listing) {error : DecodeError}
    (h : (segment.operand body).run respond state = (.error error, middle)) :
    (listing.extend body (segment :: segments)).run respond state = (.error error, middle) ∧
      Dialogue.reports respond (listing.extend body (segment :: segments)) state = [] := by
  constructor
  · rw [extend, Program.run_bind, h]
    rfl
  · rw [extend, Dialogue.reports_bind, Segment.reports_operand, h]
    rfl

theorem extend_cons_of_ok (listing : Listing) {operand : Operand}
    (h : (segment.operand body).run respond state = (.ok operand, middle)) :
    exists next : σ, forall rest : List Segment,
      (listing.extend body (segment :: rest)).run respond state =
          ((listing.push segment.offset segment.opcode operand).extend body rest).run
            respond next ∧
        Dialogue.reports respond (listing.extend body (segment :: rest)) state =
          .decoded (listing.appended segment.offset segment.opcode operand) ::
            Dialogue.reports respond
              ((listing.push segment.offset segment.opcode operand).extend body rest)
              next := by
  let event := Event.decoded (listing.appended segment.offset segment.opcode operand)
  refine ⟨(respond (.report event) middle).2, fun rest => ⟨?_, ?_⟩⟩
  · rw [extend, Program.run_bind, h]
    rfl
  · rw [extend, Dialogue.reports_bind, Segment.reports_operand, h]
    rfl

theorem decodedMessages_extend {result : Listing}
    (h : ((listing.extend body segments).run respond state).1 = .ok result) :
    listing.decodedMessages ++
        (Dialogue.reports respond (listing.extend body segments) state).map Event.logged =
      result.decodedMessages := by
  induction segments generalizing listing state with
  | nil =>
      cases Except.ok.inj h
      exact List.append_nil _
  | cons segment rest ih =>
      rcases houtcome : (segment.operand body).run respond state with ⟨outcome, middle⟩
      cases outcome with
      | error error =>
          rw [(extend_cons_of_error respond listing houtcome).1] at h
          cases h
      | ok operand =>
          rcases extend_cons_of_ok respond listing houtcome with ⟨next, hstep⟩
          rw [(hstep rest).1] at h
          rw [(hstep rest).2, ← ih h, decodedMessages_push, List.append_assoc]
          rfl

theorem exists_of_run_extend_error {error : DecodeError}
    (h : ((listing.extend body segments).run respond state).1 = .error error) :
    exists before : List Segment, exists segment : Segment, exists after : List Segment,
      exists front : Listing, exists later : σ,
        segments = before ++ segment :: after ∧
          (listing.extend body before).run respond state = (.ok front, later) ∧
          Dialogue.reports respond (listing.extend body segments) state =
            Dialogue.reports respond (listing.extend body before) state ∧
          ((segment.operand body).run respond later).1 = .error error := by
  induction segments generalizing listing state with
  | nil => cases h
  | cons segment rest ih =>
      rcases houtcome : (segment.operand body).run respond state with ⟨outcome, middle⟩
      cases outcome with
      | error cause =>
          rcases extend_cons_of_error respond listing houtcome with ⟨hrun, hreports⟩
          rw [hrun] at h
          cases h
          exact ⟨[], segment, rest, listing, state, rfl, rfl, hreports, by rw [houtcome]⟩
      | ok operand =>
          rcases extend_cons_of_ok respond listing houtcome with ⟨next, hstep⟩
          rw [(hstep rest).1] at h
          rcases ih h with ⟨before, failing, after, front, later, rfl, hrun, hreports, herror⟩
          refine ⟨segment :: before, failing, after, front, later, rfl, ?_, ?_, herror⟩
          · rw [(hstep before).1, hrun]
          · rw [(hstep (before ++ failing :: after)).2, (hstep before).2, hreports]

end Extend

end Listing

/-!
# The second pass
-/

theorem Operand.mapTargets_of_forall {operand : Operand} {change : Target -> Target}
    (h : forall target, target ∈ operand.targets -> change target = target) :
    operand.mapTargets change = operand := by
  cases operand with
  | branch target => exact congrArg Operand.branch (h target (List.mem_singleton.mpr rfl))
  | switch targets =>
      exact congrArg Operand.switch ((List.map_congr_left h).trans (List.map_id' targets))
  | _ => rfl

structure Instruction.Unmatched (instruction : Instruction) : Prop where
  place : forall target, target ∈ instruction.operand.targets ->
    exists place : Int, target = .unresolved place
  targets_eq_nil : instruction.opcode.format.isBranch = false ->
    instruction.operand.targets = []

namespace Instruction.Unmatched

variable {instruction : Instruction} {change : Target -> Target}

theorem unlabelled_mapTargets (h : instruction.Unmatched)
    (hchange : forall target, (change target).offset = target.offset) :
    (instruction.mapTargets change).unlabelled = instruction := by
  have hoperand : instruction.operand.mapTargets
      (fun target => .unresolved target.offset) = instruction.operand := by
    apply Operand.mapTargets_of_forall
    intro target htarget
    rcases h.place target htarget with ⟨place, rfl⟩
    rfl
  have hmapped : (instruction.operand.mapTargets change).mapTargets
      (fun target => .unresolved target.offset) = instruction.operand := by
    simp only [Operand.mapTargets_mapTargets, hchange, hoperand]
  unfold Instruction.unlabelled Instruction.mapTargets
  split
  · simp only [hmapped]
  · simp only [hoperand]

theorem warnings_mapTargets (h : instruction.Unmatched) :
    (instruction.mapTargets change).operand.targets.filterMap Target.warning? =
      (instruction.mapTargets change).complaints.map Event.logged := by
  cases hbranch : instruction.opcode.format.isBranch with
  | true =>
      rw [complaints_mapTargets change hbranch, operand_mapTargets, if_pos hbranch,
        List.filterMap_eq_flatMap_toList, List.map_flatMap]
      congr 1
      funext target
      cases target <;> rfl
  | false =>
      rw [operand_mapTargets, hbranch]
      rw [Instruction.complaints, Instruction.targets, opcode_mapTargets, hbranch]
      simp [h.targets_eq_nil hbranch]

end Instruction.Unmatched

namespace Listing

variable {listing : Listing}

theorem toList_resolveTargets (listing : Listing) :
    listing.resolveTargets.toList =
      listing.toList.map fun instruction => instruction.mapTargets listing.resolveTarget :=
  Array.toList_map

theorem traces_resolveTargets (hascending : listing.Ascending)
    (h : forall instruction, instruction ∈ listing.toList -> instruction.Unmatched) :
    listing.resolveTargets.traces = listing.decodedMessages := by
  rw [traces, toList_resolveTargets, List.map_map]
  apply List.map_congr_left
  intro instruction hmem
  have hsame := (h instruction hmem).unlabelled_mapTargets
    (fun target => offset_resolveTarget hascending target)
  exact congrArg (fun other : Instruction => (EventLevel.trace, other.text)) hsame

theorem warnings_resolveTargets
    (h : forall instruction, instruction ∈ listing.toList -> instruction.Unmatched) :
    listing.resolveTargets.warnings =
      (listing.resolveTargets.danglingOffsets.map .danglingTarget).map Event.logged := by
  rw [map_danglingTarget_danglingOffsets, warnings, toList_resolveTargets, List.flatMap_map,
    List.flatMap_map, List.map_flatMap]
  apply List.flatMap_congr
  intro instruction hmem
  exact (h instruction hmem).warnings_mapTargets

theorem reports_settle {σ : Type} (respond : Program.Responder dialogueInterface σ)
    (listing : Listing) (state : σ) :
    Dialogue.reports respond listing.settle state =
      listing.resolveTargets.danglingOffsets.map .danglingTarget := by
  rw [settle, Dialogue.reports_bind, Dialogue.reports_reportAll]
  exact List.append_nil _

theorem run_settle_recollection {σ : Type} (recollection : Recollection σ)
    (listing : Listing) (state : σ) :
    listing.settle.run recollection.respond state = (listing.resolveTargets, state) := by
  have hreports : forall events : List Event,
      (Dialogue.reportAll events).run recollection.respond state = ((), state) := by
    intro events
    induction events with
    | nil => rfl
    | cons event rest ih => exact ih
  rw [settle, Program.run_bind, hreports]
  rfl

end Listing

/-!
# Both passes
-/

namespace MethodBody

variable {σ : Type} {body : MethodBody} {catalog : Catalog}

theorem Transcribes.unmatched {oracle : Oracle} {statements : List Statement}
    {operands : List Operand} (h : body.Transcribes oracle catalog statements operands)
    {instruction : Instruction}
    (hmem : instruction ∈ (Listing.compose statements operands).toList) :
    instruction.Unmatched := by
  rcases Listing.exists_get?_of_mem_toList hmem with ⟨index, hget⟩
  rcases h.get?_compose_eq_some_iff.mp hget with
    ⟨statement, operand, hstatement, hoperand, rfl⟩
  have hdenotes := h.denotes hstatement hoperand
  constructor
  · intro target htarget
    exact Payload.exists_place_of_denotes hdenotes htarget
  · intro hbranch
    have hlegal := h.legal statement (List.mem_of_getElem? hstatement)
    apply Payload.targets_eq_nil_of_denotes hdenotes
    rw [Payload.isBranch_of_suits hlegal.suits]
    exact hbranch

section Passes

variable {recollection : Recollection σ} {state later : σ} {statements : List Statement}
  {found : Listing}

theorem exists_transcribes_of_run_extend
    (hlegal : forall statement, statement ∈ statements -> statement.Legal catalog)
    (hrun : (Listing.empty.extend body (layOut 0 statements)).run recollection.respond state =
      (.ok found, later)) :
    exists operands : List Operand,
      (body.withCode (codeOf statements)).Transcribes (.ofResponder recollection.respond)
          catalog statements operands ∧
        found = Listing.compose statements operands := by
  have hreturns := Dialogue.returns_run recollection.respond
    (Listing.empty.extend body (layOut 0 statements)) state
  rw [hrun] at hreturns
  rcases Listing.returns_extend_ok_iff.mp hreturns with ⟨operands, hdenotes, hfound⟩
  exact ⟨operands, transcribes_withCode_codeOf hlegal hdenotes, hfound⟩

/-- What the first pass logs can be read off the listing that decoding comes to. -/
theorem traces_of_run_extend
    (hlegal : forall statement, statement ∈ statements -> statement.Legal catalog)
    (hrun : (Listing.empty.extend body (layOut 0 statements)).run recollection.respond state =
      (.ok found, later)) :
    (Dialogue.reports recollection.respond
        (Listing.empty.extend body (layOut 0 statements)) state).map Event.logged =
      found.resolveTargets.traces := by
  have hmessages := Listing.decodedMessages_extend recollection.respond
    (congrArg Prod.fst hrun)
  rcases exists_transcribes_of_run_extend hlegal hrun with ⟨operands, htranscribes, rfl⟩
  rw [Listing.traces_resolveTargets htranscribes.ascending_compose
    (fun _ => htranscribes.unmatched), ← hmessages]
  rfl

/-- Statements whose instructions have been appended decode by themselves, and leave the same
memory behind. -/
theorem run_decode_codeOf (hcatalog : catalog.Coherent)
    (hlength : (codeOf statements).length < codeLengthLimit)
    (hlegal : forall statement, statement ∈ statements -> statement.Legal catalog)
    (hrun : (Listing.empty.extend body (layOut 0 statements)).run recollection.respond state =
      (.ok found, later)) :
    ((body.withCode (codeOf statements)).decode catalog).run recollection.respond state =
      (.ok found.resolveTargets, later) := by
  have hlimit : ¬ codeLengthLimit ≤ (body.withCode (codeOf statements)).code.length :=
    Nat.not_le.mpr hlength
  have hcut : Cut.ofCode catalog (body.withCode (codeOf statements)).code =
      { segments := (layOut 0 statements).toArray, fault := none } :=
    Cut.ofCode_codeOf hcatalog hlegal
  rw [decode, if_neg hlimit, hcut, Program.run_bind, extend_withCode, hrun]
  show (found.settle.bind fun settled => .done (Except.ok settled)).run
    recollection.respond later = _
  rw [Program.run_bind, Listing.run_settle_recollection]
  rfl

theorem logs_of_failsAt (hcatalog : catalog.Coherent)
    (hlimit : body.code.length < codeLengthLimit)
    (hlegal : forall statement, statement ∈ statements -> statement.Legal catalog)
    (hbegin : codeOf statements <+: body.code)
    (hstart : (codeOf statements).length < body.code.length)
    (hrun : (Listing.empty.extend body (layOut 0 statements)).run recollection.respond state =
      (.ok found, later)) {error : DecodeError}
    (hfails : body.FailsAt (.ofResolver (recollection.resolver later)) catalog
      (codeOf statements).length error) :
    body.Logs catalog recollection state (.error error)
      ((Dialogue.reports recollection.respond
        (Listing.empty.extend body (layOut 0 statements)) state).map Event.logged) := by
  have hdecode := run_decode_codeOf hcatalog (Nat.lt_trans hstart hlimit) hlegal hrun
  rw [List.prefix_iff_eq_take.mp hbegin] at hdecode
  rw [traces_of_run_extend hlegal hrun]
  exact Logs.failed hlimit hstart hdecode hfails

theorem logs_of_run_extend_error (hcatalog : catalog.Coherent)
    (hlimit : body.code.length < codeLengthLimit)
    (hlegal : forall statement, statement ∈ statements -> statement.Legal catalog)
    (hbegin : codeOf statements <+: body.code) {error : DecodeError}
    (hrun : ((Listing.empty.extend body (layOut 0 statements)).run recollection.respond
      state).1 = .error error) :
    body.Logs catalog recollection state (.error error)
      ((Dialogue.reports recollection.respond
        (Listing.empty.extend body (layOut 0 statements)) state).map Event.logged) := by
  rcases Listing.exists_of_run_extend_error recollection.respond hrun with
    ⟨_, _, _, _, middle, hsegments, hfront, hreports, herror⟩
  rcases Statement.exists_of_layOut_eq hsegments with ⟨front, statement, rest, rfl, rfl, rfl⟩
  rw [Nat.zero_add] at herror
  rw [hreports]
  have hlegalFront : forall other, other ∈ front -> other.Legal catalog :=
    fun other hother => hlegal other (List.mem_append_left _ hother)
  have hlegalLast : statement.Legal catalog :=
    hlegal statement (List.mem_append_right _ List.mem_cons_self)
  have hthrough := Statement.isPrefix_concat hbegin
  have hfrontCode := Statement.isPrefix_of_concat hthrough
  have hstart : (codeOf front).length < body.code.length := by
    apply Nat.lt_of_le_of_ne hfrontCode.length_le
    intro hlength
    exact Statement.codeOf_ne_of_concat hthrough (hfrontCode.eq_of_length hlength)
  rcases exists_read_cursorAt_eq_ok hcatalog (Nat.le_of_lt hstart) hlegalLast
    (Statement.bytes_isPrefix_drop hthrough) with ⟨last, hread⟩
  have hreturns := Segment.returns_run_operand (statement.placed (codeOf front).length) body
    recollection middle
  rw [herror] at hreturns
  exact logs_of_failsAt hcatalog hlimit hlegalFront hfrontCode hstart hfront
    (FailsAt.operand hread hreturns)

theorem failsAt_of_broken {oracle : Oracle} {next : Cursor} {offset : Nat}
    {fault : SegmentFault}
    (hconsumes : (body.cursorAt 0).Consumes (codeOf statements) next)
    (hbroken : Cut.Ends catalog next (some (offset, fault))) :
    (codeOf statements).length < body.code.length ∧
      body.FailsAt oracle catalog (codeOf statements).length (.ofFault offset fault) := by
  cases eq_cursorAt_of_consumes hconsumes
  cases hbroken with
  | broken hmore hread =>
      refine ⟨?_, FailsAt.fault hread⟩
      simpa [Cursor.atEnd, cursorAt] using hmore

end Passes

/-- The log of decoding can be told from what decoding comes to. There is one message for each
instruction, without labels, and in the end one for each target that has none. When decoding
fails, there is one for each instruction in front of the place where it fails, and no other.
Targets can be matched one by one and reported at once: the reports are the same. -/
theorem logs_decode {definitions : List Opcode}
    (hcatalog : Catalog.ofDefinitions definitions = .ok catalog) (body : MethodBody)
    (recollection : Recollection σ) (state : σ) :
    body.Logs catalog recollection state
        ((body.decode catalog).run recollection.respond state).1
        ((Dialogue.reports recollection.respond (body.decode catalog) state).map
          Event.logged) ∧
      forall listing : Listing,
        listing.settleInOrder (List.range listing.length) = listing.settle := by
  have hcoherent := Catalog.coherent_ofDefinitions hcatalog
  refine ⟨?_, fun listing => listing.settleInOrder_range⟩
  unfold decode
  by_cases hlength : codeLengthLimit ≤ body.code.length
  · rw [if_pos hlength]
    exact Logs.tooLarge hlength
  · have hlimit := Nat.lt_of_not_le hlength
    rcases Cut.exists_statements_of_ofCode hcoherent body.code with
      ⟨statements, next, hlegal, hconsumes, hsegments, hends⟩
    have hbegin := Cut.isPrefix_of_consumes hconsumes
    rw [if_neg hlength, Program.run_bind, Dialogue.reports_bind, hsegments,
      List.toList_toArray]
    rcases hrun : (Listing.empty.extend body (layOut 0 statements)).run
      recollection.respond state with ⟨outcome, later⟩
    cases outcome with
    | error error =>
        -- A missing operand is met before the place where the cut ends.
        rw [Dialogue.reports_done, List.append_nil]
        exact logs_of_run_extend_error hcoherent hlimit hlegal hbegin
          (congrArg Prod.fst hrun)
    | ok found =>
        cases hfault : (Cut.ofCode catalog body.code).fault with
        | some place =>
            have hbroken : Cut.Ends catalog next (some (place.1, place.2)) := by
              rw [← hfault]
              exact hends
            rcases failsAt_of_broken hconsumes hbroken with ⟨hstart, hfails⟩
            rw [Dialogue.reports_done, List.append_nil]
            exact logs_of_failsAt hcoherent hlimit hlegal hbegin hstart hrun hfails
        | none =>
            rcases exists_transcribes_of_run_extend hlegal hrun with
              ⟨operands, htranscribes, rfl⟩
            simp only [Dialogue.reports_bind, Listing.reports_settle, Dialogue.reports_done,
              List.append_nil, Program.run_bind, Listing.run_settle, List.map_append]
            rw [traces_of_run_extend hlegal hrun,
              ← Listing.warnings_resolveTargets (fun _ => htranscribes.unmatched)]
            exact Logs.complete

def dictation : Recollection (List String) :=
  fun query texts => dictate (.resolve query) texts

def danglingBody : MethodBody :=
  MethodBody.ofCode
    [0x45, 0x03, 0x00, 0x00, 0x00, 0x64, 0x00, 0x00, 0x00, 0x00, 0x00, 0x00, 0x00, 0x64, 0x00,
      0x00, 0x00, 0x2A]

def danglingMessages : List LogMessage :=
  [(.trace,
      "IL_0000: switch <unresolved IL_0075>,<unresolved IL_0011>,<unresolved IL_0075>"),
    (.trace, "IL_0011: ret"),
    (.debug, "branch target 117 does not start an instruction"),
    (.debug, "branch target 117 does not start an instruction")]

theorem logs_decode_dictation :
    (exists listing : Listing,
        listing.length = 2 ∧
          danglingBody.Logs .standard dictation [] (.ok listing) danglingMessages) ∧
      loadingBody.Logs .standard dictation ["once"]
        (.error (.symbol 5 { token := ⟨0x70000001⟩, failure := .noSuchString }))
        [(.trace, "IL_0000: ldstr \"once\"")] := by
  constructor
  · have hrun : (((danglingBody.decode .standard).run dictation.respond []).1.toOption.any
          fun listing => listing.length = 2) = true ∧
        (Dialogue.reports dictation.respond (danglingBody.decode .standard) []).map
          Event.logged = danglingMessages := by
      decide +kernel
    have hlogged := (logs_decode Catalog.ofDefinitions_standardSet danglingBody dictation
      []).1
    cases hresult : ((danglingBody.decode .standard).run dictation.respond []).1 with
    | error error =>
        rw [hresult] at hrun
        cases hrun.1
    | ok listing =>
        rw [hresult] at hrun hlogged
        rw [hrun.2] at hlogged
        exact ⟨listing, of_decide_eq_true hrun.1, hlogged⟩
  · have hrun : ((loadingBody.decode .standard).run dictation.respond ["once"]).1 =
          .error (.symbol 5 { token := ⟨0x70000001⟩, failure := .noSuchString }) ∧
        (Dialogue.reports dictation.respond (loadingBody.decode .standard)
          ["once"]).map Event.logged = [(.trace, "IL_0000: ldstr \"once\"")] := by
      decide +kernel
    rw [← hrun.1, ← hrun.2]
    exact (logs_decode Catalog.ofDefinitions_standardSet loadingBody dictation ["once"]).1

end MethodBody

end CilDisasm
