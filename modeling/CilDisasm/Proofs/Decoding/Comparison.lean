import CilDisasm.Proofs.Decoding.Reassembly
import CilDisasm.Proofs.Decoding.Variation
import CilDisasm.Proofs.Listing.Comparison

/-!
# Bytes of equal listings

Equal listings have been decoded from equal bytes, except that a float operand may be one zero
in one method body and the other zero in the other. And such bytes give equal listings, unless
an operand is a NaN. Nothing of this depends on what else the method bodies contain, as long as
no operand has to be looked up.
-/

namespace CilDisasm

open Statement (codeOf offsetAt)

def OperandFormat.zeros : OperandFormat -> List (List UInt8)
  | .shortFloat => [[0x00, 0x00, 0x00, 0x00], [0x00, 0x00, 0x00, 0x80]]
  | .float =>
      [[0x00, 0x00, 0x00, 0x00, 0x00, 0x00, 0x00, 0x00],
        [0x00, 0x00, 0x00, 0x00, 0x00, 0x00, 0x00, 0x80]]
  | _ => []

namespace Instruction

def operandBytes (instruction : Instruction) (code : List UInt8) : List UInt8 :=
  (code.drop (instruction.offset + instruction.opcode.size.toNat)).take instruction.operandSize

/-- A place in the operand of an instruction that is a zero in both codes. -/
structure HoldsZeros (instruction : Instruction) (left right : List UInt8) (place : Nat) :
    Prop where
  le_place : instruction.offset + instruction.opcode.size.toNat ≤ place
  place_lt : place < instruction.offset + instruction.size
  left_mem : instruction.operandBytes left ∈ instruction.opcode.format.zeros
  right_mem : instruction.operandBytes right ∈ instruction.opcode.format.zeros

theorem HoldsZeros.spares {instruction : Instruction} {left right : List UInt8} {place : Nat}
    (h : instruction.HoldsZeros left right place) : instruction.Spares place := by
  have hmem := h.left_mem
  refine ⟨0, ?_, h.le_place, h.place_lt⟩
  cases hformat : instruction.opcode.format with
  | shortFloat | float => rfl
  | _ =>
      rw [hformat] at hmem
      cases hmem

end Instruction

/-- Where two codes differ, both have a zero in the operand of an instruction of the listing. -/
def Listing.DifferInZeros (listing : Listing) (left right : List UInt8) : Prop :=
  forall place : Nat, left[place]? ≠ right[place]? ->
    exists instruction : Instruction,
      instruction ∈ listing.toList ∧ instruction.HoldsZeros left right place

/-!
# Zeros and references among payloads
-/

theorem LittleEndian.bytes_inj {width number other : Nat} (h : number < capacity width)
    (h' : other < capacity width) : bytes width number = bytes width other <-> number = other := by
  constructor
  · intro hbytes
    rw [← number_bytes width number h, hbytes, number_bytes width other h']
  · rintro rfl
    rfl

def OperandFormat.precision? : OperandFormat -> Option FloatFormat
  | .shortFloat => some .binary32
  | .float => some .binary64
  | _ => .none

def FloatFormat.width (precision : FloatFormat) : Nat :=
  (precision.fractionBits + precision.exponentBits + 1) / 8

theorem OperandFormat.zeros_of_precision? {format : OperandFormat} {precision : FloatFormat}
    (h : format.precision? = some precision) :
    format.zeros =
        [LittleEndian.bytes precision.width 0,
          LittleEndian.bytes precision.width
            (Nat.pow 2 (precision.fractionBits + precision.exponentBits))] ∧
      LittleEndian.capacity precision.width =
        Nat.pow 2 (precision.fractionBits + precision.exponentBits) * 2 := by
  cases format with
  | shortFloat | float =>
      cases h
      decide
  | _ => cases h

theorem OperandFormat.zeros_of_precision?_eq_none {format : OperandFormat}
    (h : format.precision? = .none) : format.zeros = [] := by
  cases format with
  | shortFloat | float => cases h
  | _ => rfl

namespace Payload

def isReference : Payload -> Bool
  | string _ | member _ | signature _ => true
  | shortLocalSlot _ | localSlot _ | shortArgumentSlot _ | argumentSlot _ => true
  | _ => false

variable {payload other : Payload} {opcode : Opcode} {oracle oracle' : Oracle}
  {body body' : MethodBody} {listing listing' : Listing} {limit limit' : Nat}
  {operand operand' linked linked' : Operand}

def float? : Payload -> Option (FloatFormat × Nat)
  | float32 value => some (.binary32, value.bits.toNat)
  | float64 value => some (.binary64, value.bits.toNat)
  | _ => .none

theorem bytes_of_float? {precision : FloatFormat} {bits : Nat}
    (h : payload.float? = some (precision, bits)) :
    payload.bytes = LittleEndian.bytes precision.width bits ∧ precision.Fits bits := by
  cases payload with
  | float32 value | float64 value =>
      cases h
      exact ⟨rfl, value.bits.toNat_lt⟩
  | _ => cases h

theorem bytes_mem_zeros_iff {format : OperandFormat}
    (hsuits : format.precision? = payload.float?.map Prod.fst) :
    payload.bytes ∈ format.zeros <->
      exists precision bits, payload.float? = some (precision, bits) ∧
        precision.isZero bits = true := by
  cases hfloat : payload.float? with
  | none =>
      rw [hfloat] at hsuits
      rw [OperandFormat.zeros_of_precision?_eq_none hsuits]
      simp
  | some float =>
      rcases float with ⟨precision, bits⟩
      rw [hfloat] at hsuits
      rcases OperandFormat.zeros_of_precision? hsuits with ⟨hzeros, hcapacity⟩
      rcases bytes_of_float? hfloat with ⟨hbytes, hfits⟩
      have hbits : bits < LittleEndian.capacity precision.width := hcapacity ▸ hfits
      have hzero : 0 < LittleEndian.capacity precision.width :=
        Nat.lt_of_le_of_lt (Nat.zero_le _) hbits
      have hsign : Nat.pow 2 (precision.fractionBits + precision.exponentBits) <
          LittleEndian.capacity precision.width := by
        rw [hcapacity, Nat.mul_two]
        exact Nat.lt_add_of_pos_left (Nat.pow_pos Nat.two_pos)
      rw [hzeros, hbytes, List.mem_pair, LittleEndian.bytes_inj hbits hzero,
        LittleEndian.bytes_inj hbits hsign, ← FloatFormat.isZero_iff hfits]
      constructor
      · exact fun h => ⟨precision, bits, rfl, h⟩
      · rintro ⟨_, _, hsame, h⟩
        cases hsame
        exact h

theorem isReference_of_denotes (h : payload.Denotes oracle body limit operand)
    (hlinks : listing.Links operand linked) : linked.isReference = payload.isReference := by
  cases payload with
  | shortBranch distance | branch distance =>
      cases h
      rcases hlinks with ⟨landed, -, rfl⟩
      rfl
  | switch distances =>
      cases h
      rcases hlinks with ⟨landed, -, rfl⟩
      rfl
  | string token | member token | signature token =>
      rcases h with ⟨answer, -, rfl⟩
      rw [show linked = _ from hlinks]
      rfl
  | shortLocalSlot index | localSlot index | shortArgumentSlot index | argumentSlot index =>
      rcases h with ⟨slot, -, rfl⟩
      rw [show linked = _ from hlinks]
      rfl
  | _ =>
      cases h
      rw [show linked = _ from hlinks]
      rfl

theorem Denotes.eq_of_isReference_eq_false (hreference : payload.isReference = false)
    (h : payload.Denotes oracle body limit operand)
    (h' : payload.Denotes oracle' body' limit operand') : operand' = operand := by
  cases payload with
  | string token | member token | signature token => cases hreference
  | shortLocalSlot index | localSlot index | shortArgumentSlot index | argumentSlot index =>
      cases hreference
  | _ => exact Eq.trans h' (Eq.symm h)

theorem resolves_of_isReference_eq_false (hreference : payload.isReference = false)
    (oracle : Oracle) (body : MethodBody) : payload.Resolves oracle body := by
  cases payload with
  | string token | member token | signature token => cases hreference
  | shortLocalSlot index | localSlot index | shortArgumentSlot index | argumentSlot index =>
      cases hreference
  | _ => trivial

theorem isToken_eq_false_of_suits (hreference : payload.isReference = false)
    (h : payload.Suits opcode) :
    opcode.format.isToken = false ∧ opcode.format.isSlot = false := by
  unfold Suits at h
  cases hformat : opcode.format with
  | string | type | method | field | member | signature =>
      rw [hformat] at h
      rcases h with ⟨token, rfl⟩
      cases hreference
  | shortLocalSlot | localSlot | shortArgumentSlot | argumentSlot =>
      rw [hformat] at h
      rcases h with ⟨index, rfl⟩
      cases hreference
  | _ => exact ⟨rfl, rfl⟩

end Payload

namespace Instruction

variable {instruction left right : Instruction} {payload other : Payload} {hasReceiver : Bool}

theorem float?_of_payload? (h : instruction.payload? hasReceiver = some payload) :
    payload.float? = instruction.operand.float? ∧
      instruction.opcode.format.precision? = instruction.operand.float?.map Prod.fst := by
  unfold payload? at h
  split at h
  case h_15 => cases h
  all_goals
    next hformat hoperand =>
      rw [hformat, hoperand]
      first
      | cases h
        exact ⟨rfl, rfl⟩
      | rcases Option.map_eq_some_iff.mp h with ⟨_, -, rfl⟩
        exact ⟨rfl, rfl⟩

theorem zeros_iff_bytes_mem (hopcode : left.opcode = right.opcode)
    (hleft : left.payload? hasReceiver = some payload)
    (hright : right.payload? hasReceiver = some other) :
    left.operand.Zeros right.operand <->
      payload.bytes ∈ left.opcode.format.zeros ∧ other.bytes ∈ left.opcode.format.zeros := by
  rcases float?_of_payload? hleft with ⟨hfloat, hprecision⟩
  rcases float?_of_payload? hright with ⟨hfloat', hprecision'⟩
  rw [← hfloat] at hprecision
  rw [← hopcode, ← hfloat'] at hprecision'
  rw [Payload.bytes_mem_zeros_iff hprecision, Payload.bytes_mem_zeros_iff hprecision']
  constructor
  · rintro ⟨hoperand, hother, hzero, hzero'⟩
    exact ⟨⟨_, _, hfloat.trans hoperand, hzero⟩, ⟨_, _, hfloat'.trans hother, hzero'⟩⟩
  · rintro ⟨⟨precision, bits, hpayload, hzero⟩, ⟨precision', others, hpayload', hzero'⟩⟩
    have hsame : precision = precision' := by
      have hequal := hprecision.symm.trans hprecision'
      rw [hpayload, hpayload'] at hequal
      exact Option.some.inj hequal
    subst hsame
    exact .intro (hfloat.symm.trans hpayload) (hfloat'.symm.trans hpayload') hzero hzero'

end Instruction

/-!
# Statements of equal listings
-/

theorem OperandFormat.length_eq_of_mem_zeros {format : OperandFormat} {bytes others : List UInt8}
    (h : bytes ∈ format.zeros) (h' : others ∈ format.zeros) : others.length = bytes.length := by
  have hlength : forall zero, zero ∈ format.zeros -> zero.length = format.width?.getD 0 := by
    cases format <;> decide
  rw [hlength _ h, hlength _ h']

namespace Statement

/-- The same statement, or another one that differs from it in the sign of a zero. -/
inductive Matches (statement : Statement) : Statement -> Prop where
  | refl : Matches statement statement
  | zeros {payload : Payload}
      (hzero : statement.payload.bytes ∈ statement.opcode.format.zeros)
      (hzero' : payload.bytes ∈ statement.opcode.format.zeros) :
      Matches statement ⟨statement.opcode, payload⟩

theorem Matches.sameShape {statement other : Statement} (h : statement.Matches other) :
    statement.SameShape other := by
  cases h with
  | refl => exact ⟨rfl, rfl⟩
  | zeros hzero hzero' =>
      refine ⟨rfl, ?_⟩
      rw [bytes, bytes, List.length_append, List.length_append,
        OperandFormat.length_eq_of_mem_zeros hzero hzero']

theorem Matches.zeros_of_getElem?_ne {statement other : Statement} (h : statement.Matches other)
    {position : Nat} (hbyte : other.bytes[position]? ≠ statement.bytes[position]?) :
    statement.opcode.bytes.length ≤ position ∧
      statement.payload.bytes ∈ statement.opcode.format.zeros ∧
      other.payload.bytes ∈ statement.opcode.format.zeros := by
  cases h with
  | refl => exact absurd rfl hbyte
  | zeros hzero hzero' =>
      refine ⟨?_, hzero, hzero'⟩
      by_contra hlt
      rw [bytes, bytes, List.getElem?_append_left (Nat.lt_of_not_le hlt),
        List.getElem?_append_left (Nat.lt_of_not_le hlt)] at hbyte
      exact hbyte rfl

end Statement

namespace Instruction

variable {left right : Instruction} {statement other : Statement} {hasReceiver : Bool}

theorem matches_of_agrees (hleft : left.statement? hasReceiver = some statement)
    (hright : right.statement? hasReceiver = some other) (h : left.agrees right = true) :
    statement.Matches other := by
  rcases agrees_iff.mp h with ⟨hoperand, hfields⟩
  have hopcode : left.opcode = right.opcode := hfields ▸ rfl
  rcases Operand.agrees_iff.mp hoperand with ⟨hsame, -⟩ | hzeros
  · rw [← hsame] at hfields
    cases hfields
    cases hleft.symm.trans hright
    exact .refl
  · rcases Option.map_eq_some_iff.mp hleft with ⟨payload, hpayload, rfl⟩
    rcases Option.map_eq_some_iff.mp hright with ⟨found, hfound, rfl⟩
    rcases (zeros_iff_bytes_mem hopcode hpayload hfound).mp hzeros with ⟨hzero, hzero'⟩
    rw [← hopcode]
    exact .zeros hzero hzero'

theorem forall₂_matches_of_agrees {statements others : List Statement}
    {instructions found : List Instruction}
    (hleft : List.Forall₂
      (fun statement instruction => instruction.statement? hasReceiver = some statement)
      statements instructions)
    (hright : List.Forall₂
      (fun statement instruction => instruction.statement? hasReceiver = some statement)
      others found)
    (h : List.Forall₂ (fun instruction other => instruction.agrees other = true)
      instructions found) :
    List.Forall₂ Statement.Matches statements others := by
  induction h generalizing statements others with
  | nil =>
      cases hleft
      cases hright
      exact .nil
  | cons hagrees _ ih =>
      cases hleft with
      | cons hfirst hrest =>
          cases hright with
          | cons hother hothers =>
              exact .cons (matches_of_agrees hfirst hother hagrees) (ih hrest hothers)

end Instruction

theorem Instruction.SameLayout.with_operand_eq {instruction other : Instruction}
    (h : instruction.SameLayout other) :
    { instruction with operand := other.operand } = other := by
  rcases other with ⟨index, offset, opcode, operand, previous, next⟩
  rw [Instruction.mk.injEq]
  exact ⟨h.index_eq.symm, h.offset_eq.symm, h.opcode_eq.symm, rfl, h.previous_eq.symm,
    h.next_eq.symm⟩

theorem Statement.exists_getElem?_of_lt_length {statements : List Statement} {place : Nat}
    (h : place < (codeOf statements).length) :
    exists index : Nat, exists statement : Statement, exists position : Nat,
      statements[index]? = some statement ∧ position < statement.bytes.length ∧
        place = offsetAt statements index + position := by
  induction statements generalizing place with
  | nil => cases h
  | cons first rest ih =>
      by_cases hfirst : place < first.bytes.length
      · exact ⟨0, first, place, rfl, hfirst, by rw [offsetAt_zero, Nat.zero_add]⟩
      · rw [codeOf_cons, List.length_append] at h
        have hrest : place - first.bytes.length < (codeOf rest).length := by
          omega
        rcases ih hrest with ⟨index, statement, position, hstatement, hposition, hplace⟩
        refine ⟨index + 1, statement, position, hstatement, hposition, ?_⟩
        rw [offsetAt, List.take_succ_cons, codeOf_cons, List.length_append]
        rw [offsetAt] at hplace
        omega

namespace MethodBody

namespace Transcribes

variable {left right : MethodBody} {oracle oracle' : Oracle} {catalog : Catalog}
  {statements others : List Statement} {operands found : List Operand}

theorem payload?_of_renders (h : left.Transcribes oracle catalog statements operands)
    {listing : Listing} {index : Nat} {statement : Statement} {instruction : Instruction}
    (hstatement : statements[index]? = some statement)
    (hrenders : Renders listing statements operands index statement instruction)
    (hreference : instruction.operand.isReference = false) :
    statement.payload.isReference = false ∧
      instruction.payload? false = some statement.payload := by
  rcases hrenders.exists_denotes h hstatement with ⟨hsuits, operand, hdenotes, hlinks⟩
  rw [Payload.isReference_of_denotes hdenotes hlinks] at hreference
  rcases Payload.isToken_eq_false_of_suits hreference hsuits with ⟨htoken, hslot⟩
  exact ⟨hreference,
    Payload.payload?_of_isSlot_eq_false htoken hslot hsuits hdenotes hlinks false⟩

theorem forall₂_statement? (hcatalog : catalog.Coherent)
    (h : left.Transcribes oracle catalog statements operands)
    (hlimit : left.code.length < codeLengthLimit)
    (hreference : forall instruction,
      instruction ∈ (Listing.compose statements operands).resolveTargets.toList ->
      instruction.operand.isReference = false) :
    List.Forall₂
      (fun statement instruction => instruction.statement? false = some statement)
      statements (Listing.compose statements operands).resolveTargets.toList := by
  apply h.forall₂_toList hcatalog hlimit
  intro index statement instruction hget hstatement hrenders
  have hplain := hreference instruction (Listing.mem_toList_of_get? hget)
  rw [Instruction.statement?, (h.payload?_of_renders hstatement hrenders hplain).2,
    hrenders.opcode_eq]
  rfl

theorem isReference_eq_false_of_mem (hcatalog : catalog.Coherent)
    (h : left.Transcribes oracle catalog statements operands)
    (hlimit : left.code.length < codeLengthLimit)
    (hreference : forall instruction,
      instruction ∈ (Listing.compose statements operands).resolveTargets.toList ->
      instruction.operand.isReference = false) {statement : Statement}
    (hmem : statement ∈ statements) : statement.payload.isReference = false := by
  rcases List.getElem?_of_mem hmem with ⟨index, hstatement⟩
  rcases h.exists_instruction hcatalog hlimit hstatement with ⟨instruction, hget, hrenders⟩
  have hplain := hreference instruction (Listing.mem_toList_of_get? hget)
  exact (h.payload?_of_renders hstatement hrenders hplain).1

theorem operandBytes_codeOf {instruction : Instruction} {index : Nat} {statement : Statement}
    (hcatalog : catalog.Coherent) (hlegal : statement.Legal catalog)
    (hstatement : statements[index]? = some statement)
    (hoffset : instruction.offset = offsetAt statements index)
    (hopcode : instruction.opcode = statement.opcode)
    (hsize : instruction.size = statement.bytes.length) :
    instruction.operandBytes (codeOf statements) = statement.payload.bytes := by
  rcases hlegal.lists with ⟨code, hlookup⟩
  have hlength := Opcode.length_bytes_of_code? (hcatalog code statement.opcode hlookup)
  rw [Instruction.size, Statement.bytes, List.length_append, hlength, hopcode,
    Nat.add_left_cancel_iff] at hsize
  rcases Statement.bytes_prefix_drop hstatement with ⟨rest, hrest⟩
  rw [Instruction.operandBytes, hoffset, hopcode, hsize, ← List.drop_drop, ← hrest,
    Statement.bytes, List.append_assoc, List.drop_left' hlength, List.take_left]

section Matching

variable (hcatalog : catalog.Coherent)
  (h : left.Transcribes oracle catalog statements operands)
  (h' : right.Transcribes oracle' catalog others found)

include h h' in
theorem length_code_of_sameShape (hshape : List.Forall₂ Statement.SameShape statements others) :
    right.code.length = left.code.length := by
  rw [← h.codeOf_eq, ← h'.codeOf_eq, ← Statement.offsetAt_length, ← Statement.offsetAt_length,
    ← hshape.length_eq, Statement.offsetAt_of_forall₂_sameShape hshape]

include hcatalog h h' in
theorem operandBytes_of_renders (hshape : List.Forall₂ Statement.SameShape statements others)
    {listing : Listing} {index : Nat} {statement other : Statement} {instruction : Instruction}
    (hrenders : Renders listing statements operands index statement instruction)
    (hstatement : statements[index]? = some statement) (hother : others[index]? = some other)
    (hsame : statement.SameShape other) :
    instruction.operandBytes left.code = statement.payload.bytes ∧
      instruction.operandBytes right.code = other.payload.bytes := by
  have hlegal := h.legal statement (List.mem_of_getElem? hstatement)
  have hlegal' := h'.legal other (List.mem_of_getElem? hother)
  rw [← h.codeOf_eq, ← h'.codeOf_eq]
  constructor
  · exact operandBytes_codeOf hcatalog hlegal hstatement hrenders.offset_eq hrenders.opcode_eq
      hrenders.size_eq
  · apply operandBytes_codeOf hcatalog hlegal' hother
    · rw [hrenders.offset_eq, Statement.offsetAt_of_forall₂_sameShape hshape]
    · rw [hrenders.opcode_eq, hsame.opcode_eq]
    · rw [hrenders.size_eq, hsame.length_eq]

include hcatalog h h' in
/-- Codes of statements that match differ in zeros only. -/
theorem differInZeros_of_matches (hlimit : left.code.length < codeLengthLimit)
    (hmatches : List.Forall₂ Statement.Matches statements others) :
    (Listing.compose statements operands).resolveTargets.DifferInZeros left.code right.code := by
  have hshape := hmatches.imp fun _ _ => Statement.Matches.sameShape
  have hlength := length_code_of_sameShape h h' hshape
  intro place hplace
  have hlt : place < (codeOf statements).length := by
    rw [h.codeOf_eq]
    by_contra hge
    have hle := Nat.le_of_not_lt hge
    rw [List.getElem?_eq_none hle, List.getElem?_eq_none (hlength ▸ hle)] at hplace
    exact hplace rfl
  rcases Statement.exists_getElem?_of_lt_length hlt with
    ⟨index, statement, position, hstatement, hposition, rfl⟩
  rcases List.getElem?_eq_some_iff.mp hstatement with ⟨hindex, rfl⟩
  have hindex' : index < others.length := hmatches.length_eq ▸ hindex
  have hother : others[index]? = some others[index] := List.getElem?_eq_getElem hindex'
  have hmatch : Statement.Matches statements[index] others[index] :=
    hmatches.get hindex hindex'
  have hposition' : position < others[index].bytes.length :=
    hmatch.sameShape.length_eq ▸ hposition
  have hright := Statement.getElem?_codeOf hother hposition'
  rw [Statement.offsetAt_of_forall₂_sameShape hshape, h'.codeOf_eq] at hright
  rw [hright, ← h.codeOf_eq, Statement.getElem?_codeOf hstatement hposition] at hplace
  rcases hmatch.zeros_of_getElem?_ne hplace.symm with ⟨hle, hzero, hzero'⟩
  rcases h.exists_instruction hcatalog hlimit hstatement with ⟨instruction, hget, hrenders⟩
  rcases operandBytes_of_renders hcatalog h h' hshape hrenders hstatement hother
    hmatch.sameShape with ⟨hbytes, hbytes'⟩
  have hopcode : statements[index].opcode.bytes.length =
      instruction.opcode.size.toNat := by
    rcases (h.legal _ (List.mem_of_getElem? hstatement)).lists with ⟨code, hlookup⟩
    rw [Opcode.length_bytes_of_code? (hcatalog code _ hlookup), hrenders.opcode_eq]
  refine ⟨instruction, Listing.mem_toList_of_get? hget, ?_, ?_, ?_, ?_⟩
  · rw [hrenders.offset_eq, ← hopcode]
    exact Nat.add_le_add_left hle _
  · rw [hrenders.offset_eq, hrenders.size_eq]
    exact Nat.add_lt_add_left hposition _
  · rw [hbytes, hrenders.opcode_eq]
    exact hzero
  · rw [hbytes', hrenders.opcode_eq]
    exact hzero'

include hcatalog h h' in
theorem forall₂_sameShape_of_differInZeros (hlimit : left.code.length < codeLengthLimit)
    (hreference : forall statement, statement ∈ statements ->
      statement.payload.isReference = false)
    (hlength : right.code.length = left.code.length)
    (hdiffer : (Listing.compose statements operands).resolveTargets.DifferInZeros
      left.code right.code) :
    List.Forall₂ Statement.SameShape statements others := by
  have hfixed : forall index statement position,
      statements[index]? = some statement ->
      position < statement.bytes.length ->
      ¬ statement.Spares position ->
      right.code[offsetAt statements index + position]? = statement.bytes[position]? := by
    intro index statement position hstatement hposition hkept
    by_contra hchanged
    rw [← Statement.getElem?_codeOf hstatement hposition, h.codeOf_eq] at hchanged
    rcases hdiffer _ (Ne.symm hchanged) with ⟨instruction, hmem, hholds⟩
    rcases List.getElem?_of_mem hmem with ⟨position', hget⟩
    rw [Listing.getElem?_toList] at hget
    exact hkept (h.spares_of_spares hcatalog hlimit hstatement hposition hget hholds.spares)
  rcases Statement.exists_variants hcatalog h.legal
    (fun statement hstatement =>
      Payload.resolves_of_isReference_eq_false (hreference statement hstatement) oracle left)
    (hlength.trans (congrArg List.length h.codeOf_eq.symm)) hfixed with
    ⟨variants, hcode, hshape, hlegal, -⟩
  have hvariants : variants = others :=
    Cut.statements_unique hcatalog hlegal h'.legal (hcode.trans h'.codeOf_eq.symm)
  exact hvariants ▸ hshape

include hcatalog h h' in
theorem exists_place_of_ne (hshape : List.Forall₂ Statement.SameShape statements others)
    {index : Nat} {statement other : Statement} (hstatement : statements[index]? = some statement)
    (hother : others[index]? = some other) (hsame : statement.SameShape other)
    (hne : other ≠ statement) :
    exists place : Nat,
      offsetAt statements index ≤ place ∧
        place < offsetAt statements index + statement.bytes.length ∧
        right.code[place]? ≠ left.code[place]? := by
  by_contra hnone
  apply hne
  apply h.variant_eq hcatalog h' hshape hstatement hother hsame.length_eq
  intro place hle hlt
  by_contra hchanged
  exact hnone ⟨place, hle, hlt, hchanged⟩

include hcatalog h h' in
/-- Codes of the same length that differ in zeros only are codes of statements that match. -/
theorem matches_of_differInZeros (hlimit : left.code.length < codeLengthLimit)
    (hreference : forall statement, statement ∈ statements ->
      statement.payload.isReference = false)
    (hlength : right.code.length = left.code.length)
    (hdiffer : (Listing.compose statements operands).resolveTargets.DifferInZeros
      left.code right.code) :
    List.Forall₂ Statement.Matches statements others := by
  have hshape :=
    forall₂_sameShape_of_differInZeros hcatalog h h' hlimit hreference hlength hdiffer
  rw [List.forall₂_iff_get]
  refine ⟨hshape.length_eq, ?_⟩
  intro index hindex hindex'
  rw [List.get_eq_getElem, List.get_eq_getElem]
  have hstatement : statements[index]? = some statements[index] := List.getElem?_eq_getElem hindex
  have hother : others[index]? = some others[index] := List.getElem?_eq_getElem hindex'
  have hsame : Statement.SameShape statements[index] others[index] :=
    hshape.get hindex hindex'
  by_cases hequal : others[index] = statements[index]
  · rw [hequal]
    exact .refl
  · rcases exists_place_of_ne hcatalog h h' hshape hstatement hother hsame hequal with
      ⟨place, hle, hlt, hne⟩
    rcases hdiffer place hne.symm with ⟨instruction, hmem, hholds⟩
    rcases List.getElem?_of_mem hmem with ⟨position, hget⟩
    rw [Listing.getElem?_toList] at hget
    have hrenders := h.renders_of_place hcatalog hlimit hstatement hle hlt hget
      (Nat.le_trans (Nat.le_add_right _ _) hholds.le_place) hholds.place_lt
    rcases operandBytes_of_renders hcatalog h h' hshape hrenders hstatement hother hsame with
      ⟨hbytes, hbytes'⟩
    have hzero := hholds.left_mem
    have hzero' := hholds.right_mem
    rw [hbytes, hrenders.opcode_eq] at hzero
    rw [hbytes', hrenders.opcode_eq] at hzero'
    have hmatch := Statement.Matches.zeros hzero hzero'
    rw [← hsame.opcode_eq] at hmatch
    exact hmatch

include hcatalog h h' in
/-- Statements that match become instructions that agree, unless their operand is a NaN. -/
theorem agrees_of_matches (hlimit : left.code.length < codeLengthLimit)
    (hlimit' : right.code.length < codeLengthLimit)
    (hmatches : List.Forall₂ Statement.Matches statements others) {index : Nat}
    {instruction other : Instruction}
    (hget : (Listing.compose statements operands).resolveTargets.get? index = some instruction)
    (hget' : (Listing.compose others found).resolveTargets.get? index = some other)
    (hreference : instruction.operand.isReference = false)
    (hreference' : other.operand.isReference = false)
    (hnan : instruction.operand.isNaN = false) : instruction.agrees other = true := by
  have hshape := hmatches.imp fun _ _ => Statement.Matches.sameShape
  rcases h.exists_renders hcatalog hlimit hget with ⟨statement, hstatement, hrenders⟩
  rcases h'.exists_renders hcatalog hlimit' hget' with ⟨variant, hvariant, hrenders'⟩
  rcases h.payload?_of_renders hstatement hrenders hreference with ⟨hplain, hpayload⟩
  rcases h'.payload?_of_renders hvariant hrenders' hreference' with ⟨-, hpayload'⟩
  rcases h.get?_resolveTargets_compose hget hstatement with ⟨operand, hoperand, hinstruction⟩
  rcases h'.get?_resolveTargets_compose hget' hvariant with ⟨operand', hoperand', hother⟩
  rw [Statement.offsetAt_of_forall₂_sameShape hshape, ← hmatches.length_eq,
    (h.sameLabels_compose h' hshape).resolveTarget_eq] at hother
  have hmatch : statement.Matches variant := by
    rcases List.getElem?_eq_some_iff.mp hstatement with ⟨hindex, rfl⟩
    rcases List.getElem?_eq_some_iff.mp hvariant with ⟨hindex', rfl⟩
    exact hmatches.get hindex hindex'
  cases hmatch with
  | refl =>
      have hdenotes := h'.denotes hvariant hoperand'
      rw [Statement.offsetAt_of_forall₂_sameShape hshape] at hdenotes
      have hsame := (h.denotes hstatement hoperand).eq_of_isReference_eq_false hplain hdenotes
      rw [hsame, ← hinstruction] at hother
      rw [hother]
      exact Instruction.agrees_iff.mpr ⟨Operand.agrees_iff.mpr (Or.inl ⟨rfl, hnan⟩), rfl⟩
  | zeros hzero hzero' =>
      have hlayout : instruction.SameLayout other := by
        have hsize : other.size = instruction.size := by
          rw [hrenders'.size_eq, hrenders.size_eq]
          exact (Statement.Matches.zeros hzero hzero').sameShape.length_eq
        rw [hinstruction, hother] at hsize ⊢
        exact Draft.sameLayout rfl rfl hsize
      have hopcode : instruction.opcode = other.opcode := hlayout.opcode_eq.symm
      rw [← hrenders.opcode_eq] at hzero hzero'
      have hzeros := (Instruction.zeros_iff_bytes_mem hopcode hpayload hpayload').mpr
        ⟨hzero, hzero'⟩
      exact Instruction.agrees_iff.mpr
        ⟨Operand.agrees_iff.mpr (Or.inr hzeros), hlayout.with_operand_eq⟩

include hcatalog h h' in
theorem agrees_iff_matches (hlimit : left.code.length < codeLengthLimit)
    (hlimit' : right.code.length < codeLengthLimit)
    (hreference : forall instruction,
      instruction ∈ (Listing.compose statements operands).resolveTargets.toList ->
      instruction.operand.isReference = false)
    (hreference' : forall instruction,
      instruction ∈ (Listing.compose others found).resolveTargets.toList ->
      instruction.operand.isReference = false) :
    (Listing.compose statements operands).resolveTargets.agrees
        (Listing.compose others found).resolveTargets = true <->
      List.Forall₂ Statement.Matches statements others ∧
        (Listing.compose statements operands).resolveTargets.NaNFree := by
  constructor
  · intro hagrees
    refine ⟨?_, (Listing.naNFree_of_agrees hagrees).1⟩
    exact Instruction.forall₂_matches_of_agrees
      (h.forall₂_statement? hcatalog hlimit hreference)
      (h'.forall₂_statement? hcatalog hlimit' hreference')
      (Listing.agrees_iff_forall₂.mp hagrees)
  · rintro ⟨hmatches, hnan⟩
    rw [Listing.agrees_iff_forall₂, List.forall₂_iff_get]
    constructor
    · show Listing.length _ = Listing.length _
      rw [Listing.length_resolveTargets, Listing.length_resolveTargets, h.length_compose,
        h'.length_compose, hmatches.length_eq]
    · intro index hindex hindex'
      have hmem := List.get_mem _ ⟨index, hindex⟩
      have hmem' := List.get_mem _ ⟨index, hindex'⟩
      have hget := List.getElem?_eq_getElem hindex
      have hget' := List.getElem?_eq_getElem hindex'
      rw [Listing.getElem?_toList] at hget hget'
      exact agrees_of_matches hcatalog h h' hlimit hlimit' hmatches hget hget'
        (hreference _ hmem) (hreference' _ hmem') (hnan _ hmem)

end Matching

end Transcribes

/-!
# Equal listings
-/

/-- Listings in which nothing has to be looked up are equal exactly if they have no NaN and were
decoded from bytes that differ in zeros only, whatever else the method bodies contain and
however queries are answered. Decoded from the same bytes, they are equal exactly if there is no
NaN. Equal listings are the same, with floats taken for the numbers that they stand for. -/
theorem agrees_iff_differInZeros {definitions : List Opcode} {catalog : Catalog}
    (hcatalog : Catalog.ofDefinitions definitions = .ok catalog) {left right : MethodBody}
    {σ τ : Type} {respond : Program.Responder dialogueInterface σ} {state : σ}
    {other : Program.Responder dialogueInterface τ} {otherState : τ}
    {listing found : Listing}
    (hleft : ((left.decode catalog).run respond state).1 = .ok listing)
    (hright : ((right.decode catalog).run other otherState).1 = .ok found)
    (hlisting : forall instruction, instruction ∈ listing.toList ->
      instruction.operand.isReference = false)
    (hfound : forall instruction, instruction ∈ found.toList ->
      instruction.operand.isReference = false) :
    (listing.agrees found = true <->
      right.code.length = left.code.length ∧ listing.NaNFree ∧ found.NaNFree ∧
        listing.DifferInZeros left.code right.code) ∧
      (right.code = left.code -> (listing.agrees found = true <-> listing.NaNFree)) ∧
      (listing.agrees found = true <-> listing.Equals found) := by
  have hcoherent := Catalog.coherent_ofDefinitions hcatalog
  rcases exists_transcribes_of_run hcoherent hleft with
    ⟨hlimit, statements, operands, h, rfl⟩
  rcases exists_transcribes_of_run hcoherent hright with
    ⟨hlimit', others, operands', h', rfl⟩
  have hagrees := Transcribes.agrees_iff_matches hcoherent h h' hlimit hlimit' hlisting hfound
  refine ⟨?_, ?_, Listing.agrees_iff_equals⟩
  · constructor
    · intro hsame
      rcases hagrees.mp hsame with ⟨hmatches, hnan⟩
      have hshape := hmatches.imp fun _ _ => Statement.Matches.sameShape
      exact ⟨Transcribes.length_code_of_sameShape h h' hshape, hnan,
        (Listing.naNFree_of_agrees hsame).2,
        Transcribes.differInZeros_of_matches hcoherent h h' hlimit hmatches⟩
    · rintro ⟨hlength, hnan, -, hdiffer⟩
      refine hagrees.mpr ⟨?_, hnan⟩
      apply Transcribes.matches_of_differInZeros hcoherent h h' hlimit ?_ hlength hdiffer
      intro statement hmem
      exact h.isReference_eq_false_of_mem hcoherent hlimit hlisting hmem
  · intro hcode
    have hothers : others = statements := by
      apply Cut.statements_unique hcoherent h'.legal h.legal
      rw [h'.codeOf_eq, h.codeOf_eq, hcode]
    rw [hagrees, hothers]
    exact and_iff_right (List.forall₂_same.mpr fun _ _ => .refl)

def zerosBody (single double : UInt8) : MethodBody :=
  MethodBody.ofCode
    [0x22, 0x00, 0x00, 0x00, single, 0x23, 0x00, 0x00, 0x00, 0x00, 0x00, 0x00, 0x00, double,
      0x2B, 0xF0, 0x2A]

theorem agrees_iff_differInZeros_zerosBody :
    exists listing : Listing, exists found : Listing,
      (((zerosBody 0x00 0x80).decode .standard).run Sample.metadata.resolve.respondOnly ()).1 =
          .ok listing ∧
        (((zerosBody 0x80 0x00).decode .standard).run Sample.metadata.resolve.respondOnly ()).1 =
          .ok found ∧
        (zerosBody 0x80 0x00).code ≠ (zerosBody 0x00 0x80).code ∧
        listing.agrees found = true ∧
        listing.DifferInZeros (zerosBody 0x00 0x80).code (zerosBody 0x80 0x00).code := by
  have hlisting : ((((zerosBody 0x00 0x80).decode .standard).run
      Sample.metadata.resolve.respondOnly ()).1.toOption.any fun listing =>
        listing.toList.all fun instruction => !instruction.operand.isReference) = true := by
    decide +kernel
  have hfound : ((((zerosBody 0x80 0x00).decode .standard).run
      Sample.metadata.resolve.respondOnly ()).1.toOption.any fun found =>
        found.toList.all fun instruction => !instruction.operand.isReference) = true := by
    decide +kernel
  have hagrees : ((((zerosBody 0x00 0x80).decode .standard).run
      Sample.metadata.resolve.respondOnly ()).1.toOption.any fun listing =>
        (((zerosBody 0x80 0x00).decode .standard).run
          Sample.metadata.resolve.respondOnly ()).1.toOption.any listing.agrees) = true := by
    decide +kernel
  rcases Listing.exists_of_all hlisting with ⟨listing, hleft, hreference⟩
  rcases Listing.exists_of_all hfound with ⟨found, hright, hreference'⟩
  rw [hleft, hright] at hagrees
  have hsame : listing.agrees found = true := hagrees
  refine ⟨listing, found, hleft, hright, by decide, hsame, ?_⟩
  exact ((agrees_iff_differInZeros Catalog.ofDefinitions_standardSet hleft hright
    (fun instruction hmem => (Bool.not_eq_true' _).mp (hreference instruction hmem))
    (fun instruction hmem => (Bool.not_eq_true' _).mp (hreference' instruction hmem))).1.mp
      hsame).2.2.2

end MethodBody

end CilDisasm
