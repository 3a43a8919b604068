import CilDisasm.Decoding.Body
import CilDisasm.Proofs.Decoding.Statement
import CilDisasm.Proofs.Listing.Offsets
import CilDisasm.Proofs.Program.Returns

/-!
# What payloads denote

Immediates stand for themselves, distances count from the end of the instruction, tokens
stand for what they are resolved to, and slots for variables and parameters of the method.
The operand of a segment is whatever its payload denotes, so appending instructions for
segments comes to choosing an operand for each of them, from front to back.
-/

namespace CilDisasm

theorem OperandFormat.width?_eq_none_iff {format : OperandFormat} :
    format.width? = Option.none <-> format = .switch := by
  cases format <;> simp [width?]

theorem Instruction.operandSize_of_width? {instruction : Instruction} {width : Nat}
    (h : instruction.opcode.format.width? = some width) :
    instruction.operandSize = width := by
  unfold operandSize
  split
  · next hformat _ =>
      rw [hformat] at h
      cases h
  · rw [h]
    rfl

namespace Payload

/-- The operands of a payload, before targets are matched with instructions. -/
def Denotes (payload : Payload) (oracle : Oracle) (body : MethodBody) (limit : Nat)
    (operand : Operand) : Prop :=
  match payload with
  | .none => operand = .none
  | .int8 value => operand = .int8 value
  | .uint8 value => operand = .uint8 value
  | .int32 value => operand = .int32 value
  | .int64 value => operand = .int64 value
  | .float32 value => operand = .float32 value
  | .float64 value => operand = .float64 value
  | .shortBranch distance => operand = .branch (.unresolved (limit + distance.toInt))
  | .branch distance => operand = .branch (.unresolved (limit + distance.toInt))
  | .switch distances =>
      operand = .switch (distances.map fun distance =>
        .unresolved (limit + distance.toInt))
  | .string token =>
      exists text : String, oracle (.string token) (.ok text) ∧ operand = .string text
  | .member token =>
      exists member : Member,
        oracle (.member token body.context) (.ok member) ∧ operand = .member member
  | .signature token =>
      exists signature : Signature,
        oracle (.signature token) (.ok signature) ∧ operand = .signature signature
  | .shortLocalSlot index =>
      exists slot : LocalVariable,
        body.locals[index.toNat]? = some slot ∧ operand = .localVariable slot
  | .localSlot index =>
      exists slot : LocalVariable,
        body.locals[index.toNat]? = some slot ∧ operand = .localVariable slot
  | .shortArgumentSlot index =>
      exists argument : Argument,
        body.arguments[index.toNat]? = some argument ∧ operand = .argument argument
  | .argumentSlot index =>
      exists argument : Argument,
        body.arguments[index.toNat]? = some argument ∧ operand = .argument argument

/-- A payload resolves when its token never fails and its slot exists. -/
def Resolves (payload : Payload) (oracle : Oracle) (body : MethodBody) : Prop :=
  match payload with
  | .string token =>
      forall outcome, oracle (.string token) outcome -> exists text, outcome = .ok text
  | .member token =>
      forall outcome, oracle (.member token body.context) outcome ->
        exists member, outcome = .ok member
  | .signature token =>
      forall outcome, oracle (.signature token) outcome ->
        exists signature, outcome = .ok signature
  | .shortLocalSlot index => index.toNat < body.locals.length
  | .localSlot index => index.toNat < body.locals.length
  | .shortArgumentSlot index => index.toNat < body.argumentCount
  | .argumentSlot index => index.toNat < body.argumentCount
  | _ => True

variable {payload : Payload} {oracle : Oracle} {body : MethodBody} {limit : Nat}
  {operand : Operand}

theorem targets_eq_nil_of_denotes (h : payload.Denotes oracle body limit operand)
    (hbranch : payload.isBranch = false) : operand.targets = [] := by
  cases payload with
  | shortBranch distance => cases hbranch
  | branch distance => cases hbranch
  | switch distances => cases hbranch
  | string token | member token | signature token =>
      rcases h with ⟨answer, -, rfl⟩
      rfl
  | shortLocalSlot index | localSlot index | shortArgumentSlot index | argumentSlot index =>
      rcases h with ⟨slot, -, rfl⟩
      rfl
  | _ =>
      cases h
      rfl

theorem exists_place_of_denotes (h : payload.Denotes oracle body limit operand)
    {target : Target} (htarget : target ∈ operand.targets) :
    exists place : Int, target = .unresolved place := by
  cases payload with
  | shortBranch distance | branch distance =>
      cases h
      exact ⟨_, List.mem_singleton.mp htarget⟩
  | switch distances =>
      cases h
      rcases List.mem_map.mp htarget with ⟨distance, -, rfl⟩
      exact ⟨_, rfl⟩
  | _ =>
      rw [targets_eq_nil_of_denotes h rfl] at htarget
      cases htarget

/-- The size of an operand is computed from the operand alone, and it is the number of bytes
that were read for it. -/
theorem operandSize_of_denotes {instruction : Instruction}
    (hsuits : payload.Suits instruction.opcode)
    (h : payload.Denotes oracle body limit instruction.operand) :
    instruction.operandSize = payload.bytes.length := by
  cases hwidth : instruction.opcode.format.width? with
  | some width =>
      rw [Instruction.operandSize_of_width? hwidth, length_bytes_of_suits hsuits hwidth]
  | none =>
      have hformat := OperandFormat.width?_eq_none_iff.mp hwidth
      have hswitch : exists distances : List Int32, payload = .switch distances := by
        unfold Suits at hsuits
        rw [hformat] at hsuits
        exact hsuits
      rcases hswitch with ⟨distances, rfl⟩
      have hoperand : instruction.operand =
          .switch (distances.map fun distance => .unresolved (limit + distance.toInt)) := h
      rw [Instruction.operandSize, hformat, hoperand, length_bytes_switch]
      simp only [List.length_map]

end Payload

/-!
# Operands of segments
-/

namespace Segment

variable {oracle : Oracle} {body : MethodBody} {segment : Segment}

theorem returns_symbolOperand_iff {query : Query} {make : query.Answer -> Operand}
    {outcome : Except DecodeError Operand} :
    Dialogue.Returns oracle (segment.symbolOperand query make) outcome <->
      exists reply : query.Outcome, oracle query reply ∧
        outcome =
          match reply with
          | .ok answer => .ok (make answer)
          | .error error => .error (.symbol segment.offset error) := by
  refine Program.returns_bind_iff.trans (exists_congr fun reply => ?_)
  refine and_congr Dialogue.returns_resolve_iff ?_
  cases reply with
  | ok answer => exact Program.returns_done_iff
  | error error => exact Program.returns_done_iff

theorem returns_symbolOperand_ok_iff {query : Query} {make : query.Answer -> Operand}
    {operand : Operand} :
    Dialogue.Returns oracle (segment.symbolOperand query make) (.ok operand) <->
      exists answer : query.Answer, oracle query (.ok answer) ∧ operand = make answer := by
  rw [returns_symbolOperand_iff]
  constructor
  · intro h
    rcases h with ⟨reply, hreply, houtcome⟩
    cases reply with
    | ok answer => exact ⟨answer, hreply, Except.ok.inj houtcome⟩
    | error error => cases houtcome
  · intro h
    rcases h with ⟨answer, hanswer, rfl⟩
    exact ⟨.ok answer, hanswer, rfl⟩

theorem localOperand_eq_ok_iff {index : UInt16} {operand : Operand} :
    segment.localOperand body index = .ok operand <->
      exists slot : LocalVariable,
        body.locals[index.toNat]? = some slot ∧ operand = .localVariable slot := by
  unfold localOperand
  cases body.locals[index.toNat]? with
  | none => simp
  | some slot => simp [eq_comm]

theorem argumentOperand_eq_ok_iff {index : UInt16} {operand : Operand} :
    segment.argumentOperand body index = .ok operand <->
      exists argument : Argument,
        body.arguments[index.toNat]? = some argument ∧ operand = .argument argument := by
  unfold argumentOperand
  rw [MethodBody.argument?_eq]
  cases body.arguments[index.toNat]? with
  | none => simp
  | some argument => simp [eq_comm]

theorem returns_done_ok_iff {operand result : Operand} :
    Dialogue.Returns oracle (.done (.ok operand) : Dialogue (Except DecodeError Operand))
        (.ok result) <-> result = operand :=
  Program.returns_done_iff.trans (iff_of_eq (Except.ok.injEq _ _))

theorem returns_operand_ok_iff {operand : Operand} :
    Dialogue.Returns oracle (segment.operand body) (.ok operand) <->
      segment.payload.Denotes oracle body segment.limit operand := by
  unfold Segment.operand Payload.Denotes
  cases segment.payload with
  | string token => exact returns_symbolOperand_ok_iff
  | member token => exact returns_symbolOperand_ok_iff
  | signature token => exact returns_symbolOperand_ok_iff
  | shortLocalSlot index =>
      exact Program.returns_done_iff.trans (eq_comm.trans localOperand_eq_ok_iff)
  | localSlot index =>
      exact Program.returns_done_iff.trans (eq_comm.trans localOperand_eq_ok_iff)
  | shortArgumentSlot index =>
      exact Program.returns_done_iff.trans (eq_comm.trans argumentOperand_eq_ok_iff)
  | argumentSlot index =>
      exact Program.returns_done_iff.trans (eq_comm.trans argumentOperand_eq_ok_iff)
  | _ => exact returns_done_ok_iff

theorem ok_of_returns_symbolOperand {query : Query} {make : query.Answer -> Operand}
    {outcome : Except DecodeError Operand}
    (hresolves : forall reply, oracle query reply -> exists answer, reply = .ok answer)
    (h : Dialogue.Returns oracle (segment.symbolOperand query make) outcome) :
    exists operand : Operand, outcome = .ok operand := by
  rcases returns_symbolOperand_iff.mp h with ⟨reply, hreply, houtcome⟩
  rcases hresolves reply hreply with ⟨answer, rfl⟩
  exact ⟨make answer, houtcome⟩

theorem exists_localOperand_eq_ok {index : UInt16}
    (hindex : index.toNat < body.locals.length) :
    exists operand : Operand, segment.localOperand body index = .ok operand := by
  have hslot : body.locals[index.toNat]? = some body.locals[index.toNat] :=
    List.getElem?_eq_getElem hindex
  exact ⟨_, localOperand_eq_ok_iff.mpr ⟨_, hslot, rfl⟩⟩

theorem exists_argumentOperand_eq_ok {index : UInt16}
    (hindex : index.toNat < body.argumentCount) :
    exists operand : Operand, segment.argumentOperand body index = .ok operand := by
  rw [← MethodBody.length_arguments] at hindex
  have hargument : body.arguments[index.toNat]? = some body.arguments[index.toNat] :=
    List.getElem?_eq_getElem hindex
  exact ⟨_, argumentOperand_eq_ok_iff.mpr ⟨_, hargument, rfl⟩⟩

theorem ok_of_returns_operand {outcome : Except DecodeError Operand}
    (hresolves : segment.payload.Resolves oracle body)
    (h : Dialogue.Returns oracle (segment.operand body) outcome) :
    exists operand : Operand, outcome = .ok operand := by
  unfold Segment.operand at h
  unfold Payload.Resolves at hresolves
  cases hpayload : segment.payload with
  | string token =>
      simp only [hpayload] at h hresolves
      exact ok_of_returns_symbolOperand hresolves h
  | member token =>
      simp only [hpayload] at h hresolves
      exact ok_of_returns_symbolOperand hresolves h
  | signature token =>
      simp only [hpayload] at h hresolves
      exact ok_of_returns_symbolOperand hresolves h
  | shortLocalSlot index =>
      simp only [hpayload] at h hresolves
      have hindex : index.toUInt16.toNat < body.locals.length := by
        simpa using hresolves
      rw [Program.returns_done_iff.mp h]
      exact exists_localOperand_eq_ok hindex
  | localSlot index =>
      simp only [hpayload] at h hresolves
      rw [Program.returns_done_iff.mp h]
      exact exists_localOperand_eq_ok hresolves
  | shortArgumentSlot index =>
      simp only [hpayload] at h hresolves
      have hindex : index.toUInt16.toNat < body.argumentCount := by
        simpa using hresolves
      rw [Program.returns_done_iff.mp h]
      exact exists_argumentOperand_eq_ok hindex
  | argumentSlot index =>
      simp only [hpayload] at h hresolves
      rw [Program.returns_done_iff.mp h]
      exact exists_argumentOperand_eq_ok hresolves
  | _ =>
      simp only [hpayload] at h
      exact ⟨_, Program.returns_done_iff.mp h⟩

/-- What an instruction is made from when its segment has an operand. -/
def draft (segment : Segment) (operand : Operand) : Draft :=
  { offset := segment.offset, opcode := segment.opcode, operand := operand }

end Segment

/-!
# Appending instructions for segments
-/

namespace Listing

variable {oracle : Oracle} {body : MethodBody}

theorem returns_extend_ok_iff {segments : List Segment} {listing result : Listing} :
    Dialogue.Returns oracle (extend body segments listing) (.ok result) <->
      exists operands : List Operand,
        List.Forall₂ (fun segment operand =>
            segment.payload.Denotes oracle body segment.limit operand)
          segments operands ∧
        result = (List.zipWith Segment.draft segments operands).foldl pushDraft listing := by
  induction segments generalizing listing with
  | nil =>
      refine Program.returns_done_iff.trans ?_
      constructor
      · intro h
        exact ⟨[], List.Forall₂.nil, Except.ok.inj h⟩
      · intro h
        rcases h with ⟨operands, -, hresult⟩
        rw [hresult]
        rfl
  | cons segment rest ih =>
      refine Program.returns_bind_iff.trans ?_
      constructor
      · intro h
        rcases h with ⟨outcome, hoperand, hrest⟩
        cases outcome with
        | error error =>
            have herror := Program.returns_done_iff.mp hrest
            cases herror
        | ok operand =>
            rcases ih.mp (Dialogue.returns_report_bind_iff.mp hrest) with
              ⟨operands, hdenotes, hresult⟩
            have hfirst := Segment.returns_operand_ok_iff.mp hoperand
            exact ⟨operand :: operands, List.Forall₂.cons hfirst hdenotes, hresult⟩
      · intro h
        rcases h with ⟨operands, hdenotes, hresult⟩
        cases hdenotes with
        | @cons _ operand _ others hfirst hothers =>
            refine ⟨.ok operand, Segment.returns_operand_ok_iff.mpr hfirst, ?_⟩
            apply Dialogue.returns_report_bind_iff.mpr
            exact ih.mpr ⟨others, hothers, hresult⟩

theorem ok_of_returns_extend {segments : List Segment} {listing : Listing}
    {outcome : Except DecodeError Listing}
    (hresolves : forall segment, segment ∈ segments ->
      segment.payload.Resolves oracle body)
    (h : Dialogue.Returns oracle (extend body segments listing) outcome) :
    exists result : Listing, outcome = .ok result := by
  induction segments generalizing listing with
  | nil => exact ⟨listing, Program.returns_done_iff.mp h⟩
  | cons segment rest ih =>
      rcases Program.returns_bind_iff.mp h with ⟨first, hoperand, hrest⟩
      have hfirst := hresolves segment List.mem_cons_self
      rcases Segment.ok_of_returns_operand hfirst hoperand with ⟨operand, rfl⟩
      refine ih ?_ (Dialogue.returns_report_bind_iff.mp hrest)
      intro other hother
      exact hresolves other (List.mem_cons_of_mem segment hother)

theorem returns_settle_bind_iff {α : Type} {listing : Listing}
    {next : Listing -> Dialogue α} {value : α} :
    Dialogue.Returns oracle (listing.settle.bind next) value <->
      Dialogue.Returns oracle (next listing.resolveTargets) value := by
  unfold settle
  rw [Program.bind_assoc]
  exact Dialogue.returns_reportAll_bind_iff

end Listing

end CilDisasm
