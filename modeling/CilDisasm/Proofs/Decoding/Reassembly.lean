import CilDisasm.Proofs.Decoding.RoundTrip

/-!
# Assembling what was decoded

Nothing that a method body says is lost in its listing, except for the tokens behind symbols.
Immediates are kept as they are, the distance of a branch is the way from the end of its
instruction to its target, and a slot is the number of the variable or parameter it stands
for, provided these are numbered by position. So the statements can be read off the
instructions again, and assembling them gives the bytes that were decoded.
-/

namespace CilDisasm

/-!
# Narrow numbers
-/

section Narrow

variable {α ν : Type} [DecidableEq ν]

def narrow? (make : ν -> α) (value : α -> ν) (number : ν) : Option α :=
  if value (make number) = number then some (make number) else none

theorem value_of_narrow? {make : ν -> α} {value : α -> ν} {number : ν} {word : α}
    (h : narrow? make value number = some word) : value word = number := by
  unfold narrow? at h
  split at h
  · next hvalue =>
      cases h
      exact hvalue
  · cases h

theorem narrow?_value {make : ν -> α} {value : α -> ν}
    (hmake : forall word, make (value word) = word) (word : α) :
    narrow? make value (value word) = some word := by
  rw [narrow?, hmake, if_pos rfl]

end Narrow

/-!
# Statements of instructions
-/

def OperandFormat.isToken : OperandFormat -> Bool
  | string | type | method | field | member | signature => true
  | _ => false

def OperandFormat.isSlot : OperandFormat -> Bool
  | shortLocalSlot | localSlot | shortArgumentSlot | argumentSlot => true
  | _ => false

/-- The distances that can be written behind a branch. -/
def OperandFormat.Reaches (format : OperandFormat) (distance : Int) : Prop :=
  match format with
  | .shortBranch => -0x80 ≤ distance ∧ distance < 0x80
  | .branch | .switch => -0x80000000 ≤ distance ∧ distance < 0x80000000
  | _ => False

/-- The slot of an argument: the receiver comes first and the parameters follow it. -/
def Argument.slot (hasReceiver : Bool) : Argument -> Nat
  | receiver => 0
  | parameter described => described.position.toNat + if hasReceiver then 1 else 0

namespace Instruction

def distance (instruction : Instruction) (target : Target) : Int :=
  target.offset - (instruction.offset + instruction.size : Nat)

/-- What has to be written behind the opcode of an instruction. A symbol does not say which
token it was resolved from. -/
def payload? (hasReceiver : Bool) (instruction : Instruction) : Option Payload :=
  match instruction.opcode.format, instruction.operand with
  | .none, .none => some .none
  | .shortInt, .int8 value => some (.int8 value)
  | .shortInt, .uint8 value => some (.uint8 value)
  | .int, .int32 value => some (.int32 value)
  | .long, .int64 value => some (.int64 value)
  | .shortFloat, .float32 value => some (.float32 value)
  | .float, .float64 value => some (.float64 value)
  | .shortBranch, .branch target =>
      (narrow? Int8.ofInt Int8.toInt (instruction.distance target)).map .shortBranch
  | .branch, .branch target =>
      (narrow? Int32.ofInt Int32.toInt (instruction.distance target)).map .branch
  | .switch, .switch targets =>
      (targets.mapM fun target =>
        narrow? Int32.ofInt Int32.toInt (instruction.distance target)).map .switch
  | .shortLocalSlot, .localVariable slot =>
      (narrow? UInt8.ofNat UInt8.toNat slot.index.toNat).map .shortLocalSlot
  | .localSlot, .localVariable slot => some (.localSlot slot.index)
  | .shortArgumentSlot, .argument argument =>
      (narrow? UInt8.ofNat UInt8.toNat (argument.slot hasReceiver)).map .shortArgumentSlot
  | .argumentSlot, .argument argument =>
      (narrow? UInt16.ofNat UInt16.toNat (argument.slot hasReceiver)).map .argumentSlot
  | _, _ => none

def statement? (hasReceiver : Bool) (instruction : Instruction) : Option Statement :=
  (instruction.payload? hasReceiver).map (Statement.mk instruction.opcode)

end Instruction

def Assembler.listing? (assembler : Assembler) (hasReceiver : Bool) (listing : Listing) :
    Option Assembler :=
  (listing.toList.mapM (Instruction.statement? hasReceiver)).map
    assembler.statements

namespace MethodBody

/-- Variables and parameters carry the numbers of their positions, as far as slots of two
bytes reach. -/
structure Numbered (body : MethodBody) : Prop where
  locals : forall {index : Nat} {slot : LocalVariable},
    body.locals[index]? = some slot -> index < UInt16.size -> slot.index.toNat = index
  parameters : forall {index : Nat} {parameter : Parameter},
    body.parameters[index]? = some parameter ->
    index + (if body.hasReceiver then 1 else 0) < UInt16.size ->
    parameter.position.toNat = index

theorem Numbered.slot_of_argument {body : MethodBody} (hnumbered : body.Numbered)
    {index : Nat} {argument : Argument} (hargument : body.arguments[index]? = some argument)
    (hindex : index < UInt16.size) : argument.slot body.hasReceiver = index := by
  have hparameters := @hnumbered.parameters
  rw [← argument?_eq] at hargument
  unfold argument? at hargument
  cases hreceiver : body.hasReceiver with
  | false =>
      rw [hreceiver] at hargument hparameters
      rcases Option.map_eq_some_iff.mp hargument with ⟨parameter, hparameter, rfl⟩
      exact hparameters hparameter hindex
  | true =>
      rw [hreceiver] at hargument hparameters
      cases index with
      | zero =>
          cases hargument
          rfl
      | succ position =>
          rcases Option.map_eq_some_iff.mp hargument with ⟨parameter, hparameter, rfl⟩
          exact congrArg Nat.succ (hparameters hparameter hindex)

end MethodBody

/-!
# Reading statements off instructions
-/

theorem mapM_eq_some_iff_forall₂ {α β : Type} {f : α -> Option β} {values : List α}
    {results : List β} :
    values.mapM f = some results <->
      List.Forall₂ (fun result value => f value = some result) results values := by
  induction values generalizing results with
  | nil =>
      rw [List.mapM_nil, List.forall₂_nil_right_iff]
      exact (Option.some_inj).trans eq_comm
  | cons value rest ih =>
      rw [List.mapM_cons, List.forall₂_cons_right_iff]
      simp only [Option.bind_eq_bind, Option.bind_eq_some_iff, Option.pure_def,
        Option.some.injEq, ih]
      constructor
      · intro h
        rcases h with ⟨first, hfirst, others, hothers, rfl⟩
        exact ⟨first, others, hfirst, hothers, rfl⟩
      · intro h
        rcases h with ⟨first, others, hfirst, hothers, rfl⟩
        exact ⟨first, hfirst, others, hothers, rfl⟩

namespace Instruction

variable {instruction : Instruction} {listing : Listing} {target : Target}

/-- The distance that a branch was written with is the one to where it landed. -/
theorem distance_of_lands {distance : Int}
    (h : listing.Lands ((instruction.offset + instruction.size : Nat) + distance) target) :
    instruction.distance target = distance := by
  rw [Instruction.distance, h.offset_eq]
  omega

theorem narrow?_int8_of_lands {distance : Int8}
    (h : listing.Lands ((instruction.offset + instruction.size : Nat) + distance.toInt)
      target) :
    narrow? Int8.ofInt Int8.toInt (instruction.distance target) = some distance := by
  rw [distance_of_lands h]
  exact narrow?_value Int8.ofInt_toInt distance

theorem narrow?_int32_of_lands {distance : Int32}
    (h : listing.Lands ((instruction.offset + instruction.size : Nat) + distance.toInt)
      target) :
    narrow? Int32.ofInt Int32.toInt (instruction.distance target) = some distance := by
  rw [distance_of_lands h]
  exact narrow?_value Int32.ofInt_toInt distance

theorem reaches_of_narrow?_int8 {number : Int} {distance : Int8}
    (h : narrow? Int8.ofInt Int8.toInt number = some distance) :
    OperandFormat.shortBranch.Reaches number := by
  rw [← value_of_narrow? h]
  exact ⟨distance.le_toInt, distance.toInt_lt⟩

theorem reaches_of_narrow?_int32 {number : Int} {distance : Int32}
    (h : narrow? Int32.ofInt Int32.toInt number = some distance) :
    -0x80000000 ≤ number ∧ number < 0x80000000 := by
  rw [← value_of_narrow? h]
  exact ⟨distance.le_toInt, distance.toInt_lt⟩

theorem reaches_of_payload? {hasReceiver : Bool} {payload : Payload}
    (h : instruction.payload? hasReceiver = some payload)
    (htarget : target ∈ instruction.targets) :
    instruction.opcode.format.Reaches (instruction.distance target) := by
  unfold payload? at h
  unfold Instruction.targets at htarget
  cases hformat : instruction.opcode.format with
  | shortBranch =>
      rw [hformat] at h htarget
      cases hoperand : instruction.operand with
      | branch only =>
          rw [hoperand] at h htarget
          rw [List.mem_singleton.mp htarget]
          rcases Option.map_eq_some_iff.mp h with ⟨distance, hdistance, -⟩
          exact reaches_of_narrow?_int8 hdistance
      | _ =>
          rw [hoperand] at h
          cases h
  | branch =>
      rw [hformat] at h htarget
      cases hoperand : instruction.operand with
      | branch only =>
          rw [hoperand] at h htarget
          rw [List.mem_singleton.mp htarget]
          rcases Option.map_eq_some_iff.mp h with ⟨distance, hdistance, -⟩
          exact reaches_of_narrow?_int32 hdistance
      | _ =>
          rw [hoperand] at h
          cases h
  | switch =>
      rw [hformat] at h htarget
      cases hoperand : instruction.operand with
      | switch targets =>
          rw [hoperand] at h htarget
          rcases Option.map_eq_some_iff.mp h with ⟨distances, hdistances, -⟩
          have hnarrow := mapM_eq_some_iff_forall₂.mp hdistances
          rcases List.getElem_of_mem htarget with ⟨index, hindex, rfl⟩
          exact reaches_of_narrow?_int32 (hnarrow.get (hnarrow.length_eq ▸ hindex) hindex)
      | _ =>
          rw [hoperand] at h
          cases h
  | _ =>
      rw [hformat] at htarget
      cases htarget

end Instruction

namespace Payload

variable {payload : Payload} {oracle : Oracle} {body : MethodBody} {listing : Listing}
  {instruction : Instruction} {operand : Operand}

theorem payload?_of_branch (hbranch : instruction.opcode.format.isBranch = true)
    (hsuits : payload.Suits instruction.opcode)
    (hdenotes : payload.Denotes oracle body (instruction.offset + instruction.size) operand)
    (hlinks : listing.Links operand instruction.operand) (hasReceiver : Bool) :
    instruction.payload? hasReceiver = some payload := by
  unfold Suits at hsuits
  unfold Instruction.payload?
  cases hformat : instruction.opcode.format with
  | shortBranch =>
      rw [hformat] at hsuits
      rcases hsuits with ⟨distance, rfl⟩
      cases hdenotes
      rcases hlinks with ⟨target, hlands, hoperand⟩
      simp only [hoperand, Instruction.narrow?_int8_of_lands hlands]
      rfl
  | branch =>
      rw [hformat] at hsuits
      rcases hsuits with ⟨distance, rfl⟩
      cases hdenotes
      rcases hlinks with ⟨target, hlands, hoperand⟩
      simp only [hoperand, Instruction.narrow?_int32_of_lands hlands]
      rfl
  | switch =>
      rw [hformat] at hsuits
      rcases hsuits with ⟨distances, rfl⟩
      cases hdenotes
      rcases hlinks with ⟨targets, hlands, hoperand⟩
      rw [List.forall₂_map_left_iff] at hlands
      have hdistances := mapM_eq_some_iff_forall₂.mpr
        (hlands.imp fun _ _ => Instruction.narrow?_int32_of_lands)
      simp only [hoperand, hdistances]
      rfl
  | _ =>
      rw [hformat] at hbranch
      cases hbranch

theorem payload?_of_immediate (hbranch : instruction.opcode.format.isBranch = false)
    (htoken : instruction.opcode.format.isToken = false)
    (hslot : instruction.opcode.format.isSlot = false)
    (hsuits : payload.Suits instruction.opcode)
    (hdenotes : payload.Denotes oracle body (instruction.offset + instruction.size) operand)
    (hlinks : listing.Links operand instruction.operand) (hasReceiver : Bool) :
    instruction.payload? hasReceiver = some payload := by
  unfold Suits at hsuits
  unfold Instruction.payload?
  cases hformat : instruction.opcode.format with
  | none =>
      rw [hformat] at hsuits
      subst hsuits
      cases hdenotes
      simp only [show instruction.operand = .none from hlinks]
  | shortInt =>
      rw [hformat] at hsuits
      simp only at hsuits
      split at hsuits
      · rcases hsuits with ⟨value, rfl⟩
        cases hdenotes
        simp only [show instruction.operand = .int8 value from hlinks]
      · rcases hsuits with ⟨value, rfl⟩
        cases hdenotes
        simp only [show instruction.operand = .uint8 value from hlinks]
  | int | long | shortFloat | float =>
      rw [hformat] at hsuits
      rcases hsuits with ⟨value, rfl⟩
      cases hdenotes
      simp only [show instruction.operand = _ from hlinks]
  | phi =>
      rw [hformat] at hsuits
      cases hsuits
  | shortBranch | branch | switch =>
      rw [hformat] at hbranch
      cases hbranch
  | string | type | method | field | member | signature =>
      rw [hformat] at htoken
      cases htoken
  | shortLocalSlot | localSlot | shortArgumentSlot | argumentSlot =>
      rw [hformat] at hslot
      cases hslot

theorem payload?_of_isSlot_eq_false (htoken : instruction.opcode.format.isToken = false)
    (hslot : instruction.opcode.format.isSlot = false)
    (hsuits : payload.Suits instruction.opcode)
    (hdenotes : payload.Denotes oracle body (instruction.offset + instruction.size) operand)
    (hlinks : listing.Links operand instruction.operand) (hasReceiver : Bool) :
    instruction.payload? hasReceiver = some payload := by
  cases hbranch : instruction.opcode.format.isBranch with
  | true => exact payload?_of_branch hbranch hsuits hdenotes hlinks _
  | false => exact payload?_of_immediate hbranch htoken hslot hsuits hdenotes hlinks _

theorem payload?_of_slot (hslot : instruction.opcode.format.isSlot = true)
    (hsuits : payload.Suits instruction.opcode)
    (hdenotes : payload.Denotes oracle body (instruction.offset + instruction.size) operand)
    (hlinks : listing.Links operand instruction.operand) (hnumbered : body.Numbered) :
    instruction.payload? body.hasReceiver = some payload := by
  unfold Suits at hsuits
  unfold Instruction.payload?
  cases hformat : instruction.opcode.format with
  | shortLocalSlot =>
      rw [hformat] at hsuits
      rcases hsuits with ⟨index, rfl⟩
      rcases hdenotes with ⟨slot, hlocal, rfl⟩
      have hlt : index.toNat < UInt16.size := Nat.lt_trans index.toNat_lt (by decide)
      simp only [show instruction.operand = _ from hlinks, hnumbered.locals hlocal hlt,
        narrow?_value fun word => UInt8.ofNat_toNat]
      rfl
  | localSlot =>
      rw [hformat] at hsuits
      rcases hsuits with ⟨index, rfl⟩
      rcases hdenotes with ⟨slot, hlocal, rfl⟩
      have hindex := UInt16.toNat_inj.mp (hnumbered.locals hlocal index.toNat_lt)
      simp only [show instruction.operand = _ from hlinks, hindex]
  | shortArgumentSlot =>
      rw [hformat] at hsuits
      rcases hsuits with ⟨index, rfl⟩
      rcases hdenotes with ⟨argument, hargument, rfl⟩
      have hlt : index.toNat < UInt16.size := Nat.lt_trans index.toNat_lt (by decide)
      simp only [show instruction.operand = _ from hlinks,
        hnumbered.slot_of_argument hargument hlt,
        narrow?_value fun word => UInt8.ofNat_toNat]
      rfl
  | argumentSlot =>
      rw [hformat] at hsuits
      rcases hsuits with ⟨index, rfl⟩
      rcases hdenotes with ⟨argument, hargument, rfl⟩
      simp only [show instruction.operand = _ from hlinks,
        hnumbered.slot_of_argument hargument index.toNat_lt,
        narrow?_value fun word => UInt16.ofNat_toNat]
      rfl
  | _ =>
      rw [hformat] at hslot
      cases hslot

end Payload

/-!
# Decoding and assembling again
-/

namespace MethodBody

variable {body : MethodBody} {oracle : Oracle} {catalog : Catalog}
  {statements : List Statement} {operands : List Operand}

namespace Transcribes

theorem forall₂_toList (hcatalog : catalog.Coherent)
    (h : body.Transcribes oracle catalog statements operands)
    (hlength : body.code.length < codeLengthLimit)
    {relation : Statement -> Instruction -> Prop}
    (hrelation : forall index statement instruction,
      (Listing.compose statements operands).resolveTargets.get? index = some instruction ->
      statements[index]? = some statement ->
      Renders (Listing.compose statements operands).resolveTargets statements operands index
        statement instruction ->
      relation statement instruction) :
    List.Forall₂ relation statements
      (Listing.compose statements operands).resolveTargets.toList := by
  rw [List.forall₂_iff_get]
  constructor
  · show statements.length = Listing.length _
    rw [Listing.length_resolveTargets, h.length_compose]
  · intro index hstatements hinstructions
    have hget : (Listing.compose statements operands).resolveTargets.get? index =
        some ((Listing.compose statements operands).resolveTargets.toList[index]) := by
      rw [← List.getElem?_eq_getElem hinstructions, Listing.getElem?_toList]
    rcases h.exists_renders hcatalog hlength hget with ⟨statement, hstatement, hrenders⟩
    rw [List.get_eq_getElem, List.get_eq_getElem]
    have hsame := (List.getElem?_eq_some_iff.mp hstatement).2
    rw [hsame]
    exact hrelation index statement _ hget hstatement hrenders

theorem statement?_of_renders
    (h : body.Transcribes oracle catalog statements operands)
    {listing : Listing} {index : Nat} {statement : Statement} {instruction : Instruction}
    (hstatement : statements[index]? = some statement)
    (hrenders : Renders listing statements operands index statement instruction)
    (htoken : instruction.opcode.format.isToken = false) (hnumbered : body.Numbered) :
    instruction.statement? body.hasReceiver = some statement := by
  rcases hrenders.exists_denotes h hstatement with ⟨hsuits, operand, hdenotes, hlinks⟩
  have hpayload : instruction.payload? body.hasReceiver = some statement.payload := by
    cases hslot : instruction.opcode.format.isSlot with
    | true => exact Payload.payload?_of_slot hslot hsuits hdenotes hlinks hnumbered
    | false =>
        exact Payload.payload?_of_isSlot_eq_false htoken hslot hsuits hdenotes hlinks _
  rw [Instruction.statement?, hpayload, hrenders.opcode_eq]
  rfl

end Transcribes

/-- Whatever the replies to its queries are, a listing that was decoded without tokens can be
written again, and it is written as it was. -/
theorem assembled_of_decode {definitions : List Opcode} {σ : Type}
    (hcatalog : Catalog.ofDefinitions definitions = .ok catalog) (body : MethodBody)
    (respond : Program.Responder dialogueInterface σ) (state : σ) {listing : Listing}
    (hdecode : ((body.decode catalog).run respond state).1 = .ok listing)
    (htoken : forall instruction, instruction ∈ listing.toList ->
      instruction.opcode.format.isToken = false)
    (hnumbered : body.Numbered) :
    (exists assembler : Assembler,
      Assembler.empty.listing? body.hasReceiver listing = some assembler ∧
        assembler.finish.1 = body.code) ∧
      forall instruction, instruction ∈ listing.toList ->
        forall target, target ∈ instruction.targets ->
          instruction.opcode.format.Reaches (instruction.distance target) := by
  have hcoherent := Catalog.coherent_ofDefinitions hcatalog
  rcases exists_transcribes_of_run hcoherent hdecode with
    ⟨hlength, statements, operands, htranscribes, rfl⟩
  have hstatements : List.Forall₂
      (fun statement instruction =>
        instruction.statement? body.hasReceiver = some statement)
      statements (Listing.compose statements operands).resolveTargets.toList := by
    apply htranscribes.forall₂_toList hcoherent hlength
    intro index statement instruction hget hstatement hrenders
    have hmem := Listing.mem_toList_of_get? hget
    exact htranscribes.statement?_of_renders hstatement hrenders (htoken _ hmem) hnumbered
  constructor
  · refine ⟨Assembler.empty.statements statements, ?_, ?_⟩
    · rw [Assembler.listing?, mapM_eq_some_iff_forall₂.mpr hstatements]
      rfl
    · rw [Assembler.finish_statements, htranscribes.codeOf_eq]
  · intro instruction hinstruction target htarget
    rcases List.getElem_of_mem hinstruction with ⟨index, hindex, rfl⟩
    have hstatement := hstatements.get (hstatements.length_eq ▸ hindex) hindex
    rcases Option.map_eq_some_iff.mp hstatement with ⟨payload, hpayload, -⟩
    exact Instruction.reaches_of_payload? hpayload htarget

def branchingBody : MethodBody :=
  { MethodBody.ofCode
      [0x02, 0x11, 0x00, 0x45, 0x02, 0x00, 0x00, 0x00, 0xF4, 0xFF, 0xFF, 0xFF, 0x05, 0x00,
        0x00, 0x00, 0x22, 0x00, 0x00, 0xC0, 0x7F, 0x2B, 0xE9, 0x0E, 0x01, 0x2A] with
    locals := [{ index := 0, typeName := "System.Int32", pinned := false }]
    parameters := [{ position := 0, name := "count", typeName := "System.Int32" }]
    hasReceiver := true }

theorem numbered_branchingBody : branchingBody.Numbered := by
  constructor
  · intro index slot hslot _
    cases index with
    | zero =>
        cases hslot
        rfl
    | succ index => cases hslot
  · intro index parameter hparameter _
    cases index with
    | zero =>
        cases hparameter
        rfl
    | succ index => cases hparameter

theorem assembled_of_decode_branchingBody :
    exists listing : Listing, exists assembler : Assembler,
      ((branchingBody.decode .standard).run Sample.metadata.resolve.respondOnly ()).1 =
          .ok listing ∧
        Assembler.empty.listing? true listing = some assembler ∧
        assembler.finish.1 = branchingBody.code := by
  have htokens : ((((branchingBody.decode .standard).run
      Sample.metadata.resolve.respondOnly ()).1).toOption.any fun listing =>
        listing.toList.all fun instruction => !instruction.opcode.format.isToken) = true := by
    decide +kernel
  rcases Listing.exists_of_all htokens with ⟨listing, hdecode, htoken⟩
  rcases (assembled_of_decode Catalog.ofDefinitions_standardSet branchingBody
    Sample.metadata.resolve.respondOnly () hdecode
    (fun instruction hmem => (Bool.not_eq_true' _).mp (htoken instruction hmem))
    numbered_branchingBody).1 with ⟨assembler, hassembler, hcode⟩
  exact ⟨listing, assembler, hdecode, hassembler, hcode⟩

end MethodBody

end CilDisasm
