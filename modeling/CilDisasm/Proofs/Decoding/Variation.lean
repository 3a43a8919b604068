import CilDisasm.Proofs.Decoding.Truncation
import CilDisasm.Proofs.Listing.Resolution

/-!
# Bytes without influence on the layout

Immediates, distances of branches and entries of jump tables may be any bytes. What they are
says nothing about where an instruction ends or whether it can be read, so code with other
bytes in their place is cut in the same places. Matching targets with instructions depends on
these places alone. So another instruction notices nothing of the change.
-/

namespace CilDisasm

open Statement (codeOf offsetAt)

/-- The formats with operand bytes that may be any. These are all bytes behind the first ones,
which are the count of a jump table. -/
def OperandFormat.freeBehind? : OperandFormat -> Option Nat
  | .shortInt | .int | .long | .shortFloat | .float | .shortBranch | .branch => some 0
  | .switch => some 4
  | _ => Option.none

/-- The places in a method body where an instruction puts up with any byte. -/
def Instruction.Spares (instruction : Instruction) (place : Nat) : Prop :=
  exists fixed : Nat,
    instruction.opcode.format.freeBehind? = some fixed ∧
      instruction.offset + instruction.opcode.size.toNat + fixed ≤ place ∧
      place < instruction.offset + instruction.size

instance (instruction : Instruction) (place : Nat) : Decidable (instruction.Spares place) :=
  inferInstanceAs (Decidable (exists fixed : Nat,
    fixed ∈ instruction.opcode.format.freeBehind? ∧
      instruction.offset + instruction.opcode.size.toNat + fixed ≤ place ∧
      place < instruction.offset + instruction.size))

/-- Instructions that differ in their operands at most. -/
structure Instruction.SameLayout (instruction other : Instruction) : Prop where
  index_eq : other.index = instruction.index
  offset_eq : other.offset = instruction.offset
  opcode_eq : other.opcode = instruction.opcode
  size_eq : other.size = instruction.size
  previous_eq : other.previous = instruction.previous
  next_eq : other.next = instruction.next

theorem Draft.sameLayout {draft other : Draft} {change change' : Target -> Target}
    {length index : Nat} (hoffset : other.offset = draft.offset)
    (hopcode : other.opcode = draft.opcode)
    (hsize : ((other.instruction length index).mapTargets change').size =
      ((draft.instruction length index).mapTargets change).size) :
    ((draft.instruction length index).mapTargets change).SameLayout
      ((other.instruction length index).mapTargets change') where
  index_eq := by
    rw [Instruction.index_mapTargets, Instruction.index_mapTargets]
    rfl
  offset_eq := by
    rw [Instruction.offset_mapTargets, Instruction.offset_mapTargets]
    exact hoffset
  opcode_eq := by
    rw [Instruction.opcode_mapTargets, Instruction.opcode_mapTargets]
    exact hopcode
  size_eq := hsize
  previous_eq := by
    rw [Instruction.previous_mapTargets, Instruction.previous_mapTargets]
    rfl
  next_eq := by
    rw [Instruction.next_mapTargets, Instruction.next_mapTargets]
    rfl

/-!
# Other bytes for a statement
-/

theorem OperandFormat.Admits.of_freeBehind? {format : OperandFormat} {fixed : Nat}
    (hfree : format.freeBehind? = some fixed) {bytes others : List UInt8}
    (h : format.Admits bytes) (hlength : others.length = bytes.length)
    (htake : others.take fixed = bytes.take fixed) : format.Admits others := by
  unfold Admits at h ⊢
  cases format with
  | switch =>
      cases hfree
      simp only at h ⊢
      rw [hlength, htake]
      exact h
  | shortInt | int | long | shortFloat | float | shortBranch | branch =>
      simp only at h ⊢
      rw [hlength]
      exact h
  | _ => cases hfree

theorem Opcode.resolves_payloadOf_of_freeBehind? {opcode : Opcode} {fixed : Nat}
    (hfree : opcode.format.freeBehind? = some fixed) (bytes : List UInt8) (oracle : Oracle)
    (body : MethodBody) : (opcode.payloadOf bytes).Resolves oracle body := by
  unfold payloadOf
  cases hformat : opcode.format with
  | shortInt =>
      simp only
      split <;> trivial
  | int | long | shortFloat | float | shortBranch | branch | switch => trivial
  | _ =>
      rw [hformat] at hfree
      cases hfree

namespace Statement

def Spares (statement : Statement) (position : Nat) : Prop :=
  exists fixed : Nat,
    statement.opcode.format.freeBehind? = some fixed ∧
      statement.opcode.bytes.length + fixed ≤ position

structure SameShape (statement variant : Statement) : Prop where
  opcode_eq : variant.opcode = statement.opcode
  length_eq : variant.bytes.length = statement.bytes.length

variable {catalog : Catalog} {statement : Statement} {oracle : Oracle} {body : MethodBody}

theorem eq_of_freeBehind?_eq_none (hfree : statement.opcode.format.freeBehind? = none)
    {bytes : List UInt8}
    (hfixed : forall position, ¬ statement.Spares position ->
      bytes[position]? = statement.bytes[position]?) : bytes = statement.bytes := by
  apply List.ext_getElem?
  intro position
  apply hfixed
  intro hspares
  rcases hspares with ⟨fixed, hfixed, -⟩
  rw [hfree] at hfixed
  cases hfixed

theorem take_eq_of_freeBehind? {fixed : Nat}
    (hfree : statement.opcode.format.freeBehind? = some fixed) {bytes : List UInt8}
    (hfixed : forall position, ¬ statement.Spares position ->
      bytes[position]? = statement.bytes[position]?) :
    bytes.take (statement.opcode.bytes.length + fixed) =
      statement.bytes.take (statement.opcode.bytes.length + fixed) := by
  apply List.ext_getElem?
  intro position
  rw [List.getElem?_take, List.getElem?_take]
  split
  · next hlt =>
      apply hfixed
      intro hspares
      rcases hspares with ⟨behind, hbehind, hle⟩
      rw [hfree] at hbehind
      cases hbehind
      exact absurd hlt (Nat.not_lt.mpr hle)
  · rfl

/-- Bytes that differ from those of a statement in free positions only are a statement too. -/
theorem Legal.exists_variant (hcatalog : catalog.Coherent) (hlegal : statement.Legal catalog)
    (hresolves : statement.payload.Resolves oracle body) {bytes : List UInt8}
    (hlength : bytes.length = statement.bytes.length)
    (hfixed : forall position, ¬ statement.Spares position ->
      bytes[position]? = statement.bytes[position]?) :
    exists variant : Statement,
      variant.Legal catalog ∧ variant.bytes = bytes ∧ statement.SameShape variant ∧
        variant.payload.Resolves oracle body := by
  rcases hlegal.encodes hcatalog with ⟨hencodes, hpayload⟩
  cases hfree : statement.opcode.format.freeBehind? with
  | none =>
      have hbytes := eq_of_freeBehind?_eq_none hfree hfixed
      exact ⟨statement, hlegal, hbytes.symm, ⟨rfl, rfl⟩, hresolves⟩
  | some fixed =>
      have htake := take_eq_of_freeBehind? hfree hfixed
      have hfront : statement.opcode.bytes <+: bytes.take _ :=
        htake ▸ List.prefix_take_iff.mpr ⟨List.prefix_append _ _, Nat.le_add_right _ _⟩
      rcases hfront.trans (List.take_prefix _ _) with ⟨others, rfl⟩
      rw [bytes, List.take_length_add_append, List.take_length_add_append,
        List.append_cancel_left_eq] at htake
      rw [bytes, List.length_append, List.length_append, Nat.add_left_cancel_iff]
        at hlength
      have hadmits := hencodes.admits.of_freeBehind? hfree hlength htake
      rcases hencodes.listed with ⟨code, hlookup, -⟩
      have hopcode := Opcode.bytes_of_code? (hcatalog code _ hlookup)
      have hvariant : catalog.Encodes (statement.opcode.bytes ++ others) statement.opcode
          others := ⟨⟨code, hlookup, by rw [hopcode]⟩, hadmits⟩
      rcases hvariant.legal hcatalog with ⟨hother, hbytes⟩
      refine ⟨_, hother, hbytes, ⟨rfl, ?_⟩, ?_⟩
      · rw [hbytes, bytes, List.length_append, List.length_append, hlength]
      · exact Opcode.resolves_payloadOf_of_freeBehind? hfree others oracle body

/-!
# Other bytes for code
-/

theorem getElem?_codeOf {statements : List Statement} {index position : Nat}
    (hstatement : statements[index]? = some statement)
    (hposition : position < statement.bytes.length) :
    (codeOf statements)[offsetAt statements index + position]? =
      statement.bytes[position]? := by
  rw [← List.getElem?_drop,
    List.prefix_iff_getElem?.mp (bytes_prefix_drop hstatement) position hposition]
  exact (List.getElem?_eq_getElem hposition).symm

theorem index_eq_of_offsetAt {statements : List Statement} {first second place : Nat}
    (hfirst : offsetAt statements first ≤ place)
    (hfirst' : place < offsetAt statements (first + 1))
    (hsecond : offsetAt statements second ≤ place)
    (hsecond' : place < offsetAt statements (second + 1)) : first = second := by
  rcases Nat.lt_trichotomy first second with hlt | heq | hgt
  · have hle := Nat.le_trans (offsetAt_le hlt) hsecond
    exact absurd hfirst' (Nat.not_lt.mpr hle)
  · exact heq
  · have hle := Nat.le_trans (offsetAt_le hgt) hfirst
    exact absurd hsecond' (Nat.not_lt.mpr hle)

theorem offsetAt_of_forall₂_sameShape {statements variants : List Statement}
    (h : List.Forall₂ SameShape statements variants) (index : Nat) :
    offsetAt variants index = offsetAt statements index := by
  induction h generalizing index with
  | nil => rfl
  | cons hfirst _ ih =>
      cases index with
      | zero => rfl
      | succ index =>
          have hrest := ih index
          rw [offsetAt, offsetAt] at hrest
          rw [offsetAt, offsetAt, List.take_succ_cons, List.take_succ_cons, codeOf_cons,
            codeOf_cons, List.length_append, List.length_append, hfirst.length_eq, hrest]

/-- Statement by statement, code that differs in free positions only is code again. -/
theorem exists_variants (hcatalog : catalog.Coherent) {statements : List Statement}
    (hlegal : forall statement, statement ∈ statements -> statement.Legal catalog)
    (hresolves : forall statement, statement ∈ statements ->
      statement.payload.Resolves oracle body)
    {code : List UInt8} (hlength : code.length = (codeOf statements).length)
    (hfixed : forall index statement position,
      statements[index]? = some statement ->
      position < statement.bytes.length ->
      ¬ statement.Spares position ->
      code[offsetAt statements index + position]? = statement.bytes[position]?) :
    exists variants : List Statement,
      codeOf variants = code ∧ List.Forall₂ SameShape statements variants ∧
        (forall variant, variant ∈ variants -> variant.Legal catalog) ∧
        forall variant, variant ∈ variants -> variant.payload.Resolves oracle body := by
  induction statements generalizing code with
  | nil =>
      have hnil := List.eq_nil_of_length_eq_zero hlength
      exact ⟨[], hnil.symm, List.Forall₂.nil, by simp, by simp⟩
  | cons statement rest ih =>
      rcases List.forall_mem_cons.mp hlegal with ⟨hlegalFirst, hlegalRest⟩
      rcases List.forall_mem_cons.mp hresolves with ⟨hresolvesFirst, hresolvesRest⟩
      rw [codeOf_cons, List.length_append] at hlength
      have htake : (code.take statement.bytes.length).length = statement.bytes.length :=
        List.length_take_of_le (hlength ▸ Nat.le_add_right _ _)
      have hdrop : (code.drop statement.bytes.length).length = (codeOf rest).length := by
        rw [List.length_drop, hlength, Nat.add_sub_cancel_left]
      have hfirst : forall position, ¬ statement.Spares position ->
          (code.take statement.bytes.length)[position]? = statement.bytes[position]? := by
        intro position hspares
        rw [List.getElem?_take]
        split
        · next hlt =>
            have hbyte := hfixed 0 statement position rfl hlt hspares
            rw [offsetAt_zero, Nat.zero_add] at hbyte
            exact hbyte
        · next hge => exact (List.getElem?_eq_none (Nat.le_of_not_lt hge)).symm
      -- Statements keep their lengths, so the others are where they were.
      have hrest : forall index other position,
          rest[index]? = some other ->
          position < other.bytes.length ->
          ¬ other.Spares position ->
          (code.drop statement.bytes.length)[offsetAt rest index + position]? =
            other.bytes[position]? := by
        intro index other position hother hlt hspares
        have hbyte := hfixed (index + 1) other position hother hlt hspares
        rw [offsetAt, List.take_succ_cons, codeOf_cons, List.length_append,
          Nat.add_assoc] at hbyte
        rw [List.getElem?_drop]
        exact hbyte
      rcases hlegalFirst.exists_variant hcatalog hresolvesFirst htake hfirst with
        ⟨variant, hvariant, hbytes, hshape, hvariantResolves⟩
      rcases ih hlegalRest hresolvesRest hdrop hrest with
        ⟨variants, hcode, hshapes, hvariants, hvariantsResolve⟩
      refine ⟨variant :: variants, ?_, List.Forall₂.cons hshape hshapes, ?_, ?_⟩
      · rw [codeOf_cons, hbytes, hcode, List.take_append_drop]
      · exact List.forall_mem_cons.mpr ⟨hvariant, hvariants⟩
      · exact List.forall_mem_cons.mpr ⟨hvariantResolves, hvariantsResolve⟩

end Statement

/-!
# Listings of the same layout
-/

theorem Payload.Denotes.unique {payload : Payload} {resolver : Resolver} {body : MethodBody}
    {limit : Nat} {operand other : Operand}
    (h : payload.Denotes (.ofResolver resolver) body limit operand)
    (h' : payload.Denotes (.ofResolver resolver) body limit other) : other = operand := by
  cases payload with
  | string token | member token | signature token =>
      rcases h with ⟨answer, hanswer, rfl⟩
      rcases h' with ⟨found, hfound, rfl⟩
      cases hanswer.symm.trans hfound
      rfl
  | shortLocalSlot index | localSlot index | shortArgumentSlot index | argumentSlot index =>
      rcases h with ⟨slot, hslot, rfl⟩
      rcases h' with ⟨found, hfound, rfl⟩
      cases hslot.symm.trans hfound
      rfl
  | _ => exact Eq.trans h' (Eq.symm h)

namespace MethodBody

variable {body : MethodBody} {catalog : Catalog} {resolver : Resolver}
  {statements variants : List Statement} {operands others : List Operand}
  {code : List UInt8}

namespace Transcribes

theorem map_label_get?_compose {oracle : Oracle}
    (h : body.Transcribes oracle catalog statements operands) (index : Nat) :
    ((Listing.compose statements operands).get? index).map Instruction.label =
      statements[index]?.map (fun _ =>
        { index := index, offset := offsetAt statements index }) := by
  cases hget : (Listing.compose statements operands).get? index with
  | none =>
      have hle := Listing.get?_eq_none_iff.mp hget
      rw [h.length_compose] at hle
      rw [List.getElem?_eq_none hle]
      rfl
  | some instruction =>
      rcases h.get?_compose_eq_some_iff.mp hget with ⟨statement, _, hstatement, -, rfl⟩
      rw [hstatement]
      rfl

theorem get?_resolveTargets_compose {oracle : Oracle}
    (h : body.Transcribes oracle catalog statements operands) {index : Nat}
    {statement : Statement} {instruction : Instruction}
    (hget : (Listing.compose statements operands).resolveTargets.get? index =
      some instruction)
    (hstatement : statements[index]? = some statement) :
    exists operand : Operand,
      operands[index]? = some operand ∧
        instruction =
          (((statement.placed (offsetAt statements index)).draft operand).instruction
            statements.length index).mapTargets
              (Listing.compose statements operands).resolveTarget := by
  rw [Listing.get?_resolveTargets] at hget
  rcases Option.map_eq_some_iff.mp hget with ⟨former, hformer, rfl⟩
  rcases h.get?_compose_eq_some_iff.mp hformer with ⟨_, operand, hfound, hoperand, rfl⟩
  cases hstatement.symm.trans hfound
  exact ⟨operand, hoperand, rfl⟩

theorem sameLabels_compose {other : MethodBody} {oracle oracle' : Oracle}
    (h : body.Transcribes oracle catalog statements operands)
    (h' : other.Transcribes oracle' catalog variants others)
    (hshape : List.Forall₂ Statement.SameShape statements variants) :
    (Listing.compose statements operands).SameLabels (Listing.compose variants others) := by
  intro index
  rw [h.map_label_get?_compose, h'.map_label_get?_compose,
    Statement.offsetAt_of_forall₂_sameShape hshape]
  by_cases hindex : index < statements.length
  · rw [List.getElem?_eq_getElem hindex,
      List.getElem?_eq_getElem (hshape.length_eq ▸ hindex)]
    rfl
  · have hle := Nat.le_of_not_lt hindex
    rw [List.getElem?_eq_none hle, List.getElem?_eq_none (hshape.length_eq ▸ hle)]

theorem operand_eq (h : body.Transcribes (.ofResolver resolver) catalog statements operands)
    (h' : (body.withCode code).Transcribes (.ofResolver resolver) catalog variants others)
    (hshape : List.Forall₂ Statement.SameShape statements variants) {index : Nat}
    {statement : Statement} {operand other : Operand}
    (hstatement : statements[index]? = some statement)
    (hvariant : variants[index]? = some statement)
    (hoperand : operands[index]? = some operand)
    (hother : others[index]? = some other) : other = operand := by
  have hdenotes := denotes_withCode_iff.mp (h'.denotes hvariant hother)
  rw [Statement.offsetAt_of_forall₂_sameShape hshape] at hdenotes
  exact (h.denotes hstatement hoperand).unique hdenotes

theorem variant_eq {other : MethodBody} {oracle oracle' : Oracle} (hcatalog : catalog.Coherent)
    (h : body.Transcribes oracle catalog statements operands)
    (h' : other.Transcribes oracle' catalog variants others)
    (hshape : List.Forall₂ Statement.SameShape statements variants) {index : Nat}
    {statement variant : Statement} (hstatement : statements[index]? = some statement)
    (hvariant : variants[index]? = some variant)
    (hlength : variant.bytes.length = statement.bytes.length)
    (hsame : forall place, offsetAt statements index ≤ place ->
      place < offsetAt statements index + statement.bytes.length ->
      other.code[place]? = body.code[place]?) : variant = statement := by
  have hbytes : variant.bytes = statement.bytes := by
    apply List.ext_getElem?
    intro position
    by_cases hposition : position < statement.bytes.length
    · have hbyte := hsame (offsetAt statements index + position) (Nat.le_add_right _ _)
        (Nat.add_lt_add_left hposition _)
      rw [← h.codeOf_eq, Statement.getElem?_codeOf hstatement hposition] at hbyte
      rw [← hbyte, ← Statement.offsetAt_of_forall₂_sameShape hshape,
        ← Statement.getElem?_codeOf hvariant (hlength ▸ hposition), h'.codeOf_eq]
    · have hle := Nat.le_of_not_lt hposition
      rw [List.getElem?_eq_none hle, List.getElem?_eq_none (hlength ▸ hle)]
  exact Statement.eq_of_isPrefix hcatalog (h'.legal _ (List.mem_of_getElem? hvariant))
    (h.legal _ (List.mem_of_getElem? hstatement)) (List.prefix_refl _)
    (hbytes ▸ List.prefix_refl _)

theorem sameLayout (hcatalog : catalog.Coherent)
    (h : body.Transcribes (.ofResolver resolver) catalog statements operands)
    (h' : (body.withCode code).Transcribes (.ofResolver resolver) catalog variants others)
    (hshape : List.Forall₂ Statement.SameShape statements variants)
    (hlimit : body.code.length < codeLengthLimit)
    (hlimit' : code.length < codeLengthLimit) {index : Nat} {instruction : Instruction}
    (hget : (Listing.compose statements operands).resolveTargets.get? index =
      some instruction) :
    exists other : Instruction,
      (Listing.compose variants others).resolveTargets.get? index = some other ∧
        instruction.SameLayout other ∧
        ((forall place, instruction.offset ≤ place ->
            place < instruction.offset + instruction.size ->
            code[place]? = body.code[place]?) ->
          other = instruction) := by
  rcases h.exists_renders hcatalog hlimit hget with ⟨statement, hstatement, hrenders⟩
  rcases h.get?_resolveTargets_compose hget hstatement with ⟨operand, hoperand, rfl⟩
  rcases List.getElem?_eq_some_iff.mp hstatement with ⟨hindex, rfl⟩
  have hindex' : index < variants.length := hshape.length_eq ▸ hindex
  have hvariant : variants[index]? = some variants[index] := List.getElem?_eq_getElem hindex'
  have hsame : Statement.SameShape statements[index] variants[index] :=
    hshape.get hindex hindex'
  rcases h'.exists_instruction hcatalog hlimit' hvariant with ⟨other, hother, hrenders'⟩
  rcases h'.get?_resolveTargets_compose hother hvariant with ⟨operand', hoperand', rfl⟩
  rw [Statement.offsetAt_of_forall₂_sameShape hshape, ← hshape.length_eq,
    (h.sameLabels_compose h' hshape).resolveTarget_eq] at hother hrenders'
  refine ⟨_, hother, Draft.sameLayout rfl hsame.opcode_eq ?_, ?_⟩
  · rw [hrenders'.size_eq, hrenders.size_eq, hsame.length_eq]
  · intro hbytes
    rw [hrenders.offset_eq, hrenders.size_eq] at hbytes
    have hstatements := h.variant_eq hcatalog h' hshape hstatement hvariant
      hsame.length_eq hbytes
    rw [hstatements] at hvariant ⊢
    rw [h.operand_eq h' hshape hstatement hvariant hoperand hoperand']

theorem renders_of_place {oracle : Oracle} (hcatalog : catalog.Coherent)
    (h : body.Transcribes oracle catalog statements operands)
    (hlimit : body.code.length < codeLengthLimit) {index found place : Nat}
    {statement : Statement} {instruction : Instruction}
    (hstatement : statements[index]? = some statement)
    (hplace : offsetAt statements index ≤ place)
    (hplace' : place < offsetAt statements index + statement.bytes.length)
    (hget : (Listing.compose statements operands).resolveTargets.get? found =
      some instruction)
    (hle : instruction.offset ≤ place) (hlt : place < instruction.offset + instruction.size) :
    Renders (Listing.compose statements operands).resolveTargets statements operands index
      statement instruction := by
  rcases h.exists_renders hcatalog hlimit hget with ⟨other, hother, hrenders⟩
  rw [hrenders.offset_eq, hrenders.size_eq, ← Statement.offsetAt_succ hother] at hlt
  rw [hrenders.offset_eq] at hle
  rw [← Statement.offsetAt_succ hstatement] at hplace'
  cases Statement.index_eq_of_offsetAt hle hlt hplace hplace'
  cases hstatement.symm.trans hother
  exact hrenders

theorem spares_of_spares {oracle : Oracle} (hcatalog : catalog.Coherent)
    (h : body.Transcribes oracle catalog statements operands)
    (hlimit : body.code.length < codeLengthLimit) {index found position : Nat}
    {statement : Statement} {instruction : Instruction}
    (hstatement : statements[index]? = some statement)
    (hposition : position < statement.bytes.length)
    (hget : (Listing.compose statements operands).resolveTargets.get? found =
      some instruction)
    (hspares : instruction.Spares (offsetAt statements index + position)) :
    statement.Spares position := by
  rcases hspares with ⟨fixed, hfree, hle, hlt⟩
  have hrenders := h.renders_of_place hcatalog hlimit hstatement (Nat.le_add_right _ _)
    (Nat.add_lt_add_left hposition _) hget
    (Nat.le_trans (Nat.le_trans (Nat.le_add_right _ _) (Nat.le_add_right _ _)) hle) hlt
  rcases (h.legal statement (List.mem_of_getElem? hstatement)).lists with ⟨code, hlookup⟩
  have hopcode := hcatalog code statement.opcode hlookup
  rw [hrenders.offset_eq, hrenders.opcode_eq, Nat.add_assoc] at hle
  rw [hrenders.opcode_eq] at hfree
  refine ⟨fixed, hfree, ?_⟩
  rw [Opcode.length_bytes_of_code? hopcode]
  exact Nat.le_of_add_le_add_left hle

end Transcribes

/-!
# Decoding with other bytes
-/

/-- Changed in free bytes only, however many, a method body that decodes is decoded again, with
the same layout. An instruction whose own bytes are as they were is the same in both
listings. -/
theorem sameLayout_of_decode {definitions : List Opcode}
    (hcatalog : Catalog.ofDefinitions definitions = .ok catalog) (body : MethodBody)
    (resolver : Resolver) {listing : Listing}
    (hresult : (body.decode catalog).result resolver = .ok listing) {code : List UInt8}
    (hlength : code.length = body.code.length)
    (hspares : forall place, code[place]? ≠ body.code[place]? ->
      exists index : Nat, exists instruction : Instruction,
        listing.get? index = some instruction ∧ instruction.Spares place) :
    exists varied : Listing,
      ((body.withCode code).decode catalog).result resolver = .ok varied ∧
        varied.length = listing.length ∧
        forall (index : Nat) (instruction : Instruction),
          listing.get? index = some instruction ->
          exists other : Instruction,
            varied.get? index = some other ∧ instruction.SameLayout other ∧
              ((forall place, instruction.offset ≤ place ->
                  place < instruction.offset + instruction.size ->
                  code[place]? = body.code[place]?) ->
                other = instruction) := by
  have hcoherent := Catalog.coherent_ofDefinitions hcatalog
  rcases (returns_decode_ok_iff hcoherent).mp (Dialogue.result_eq_iff_returns.mp hresult) with
    ⟨hlimit, statements, operands, htranscribes, rfl⟩
  have hlimit' : code.length < codeLengthLimit := hlength ▸ hlimit
  have hfixed : forall index statement position,
      statements[index]? = some statement ->
      position < statement.bytes.length ->
      ¬ statement.Spares position ->
      code[offsetAt statements index + position]? = statement.bytes[position]? := by
    intro index statement position hstatement hposition hkept
    by_contra hchanged
    rw [← Statement.getElem?_codeOf hstatement hposition, htranscribes.codeOf_eq] at hchanged
    rcases hspares _ hchanged with ⟨found, instruction, hget, hfound⟩
    exact hkept
      (htranscribes.spares_of_spares hcoherent hlimit hstatement hposition hget hfound)
  rcases Statement.exists_variants hcoherent htranscribes.legal
    (fun _ hstatement => htranscribes.resolves hstatement)
    (hlength.trans (congrArg List.length htranscribes.codeOf_eq.symm)) hfixed with
    ⟨variants, hcode, hshape, hlegal, hresolves⟩
  have hreturns := Dialogue.result_eq_iff_returns.mp
    (Eq.refl (((body.withCode code).decode catalog).result resolver))
  rcases ok_of_returns_decode hcoherent hcode hlimit' hlegal
    (fun variant hvariant => resolves_withCode_iff.mpr (hresolves variant hvariant))
    hreturns with ⟨varied, hvaried⟩
  rw [hvaried] at hreturns
  rcases (returns_decode_ok_iff hcoherent).mp hreturns with
    ⟨-, found, others, hothers, rfl⟩
  have hfound : found = variants :=
    Cut.statements_unique hcoherent hothers.legal hlegal (hothers.codeOf_eq.trans hcode.symm)
  subst hfound
  refine ⟨_, hvaried, ?_, ?_⟩
  · rw [Listing.length_resolveTargets, Listing.length_resolveTargets,
      htranscribes.length_compose, hothers.length_compose, hshape.length_eq]
  · intro index instruction hget
    exact htranscribes.sameLayout hcoherent hothers hshape hlimit hlimit' hget

def otherLoopCode : List UInt8 :=
  (Sample.loopBody.code.set 3 0x01).set 35 0x63

theorem getElem?_otherLoopCode {place : Nat} (hfirst : place ≠ 3) (hsecond : place ≠ 35) :
    otherLoopCode[place]? = Sample.loopBody.code[place]? := by
  rw [otherLoopCode, List.getElem?_set_ne hsecond.symm, List.getElem?_set_ne hfirst.symm]

theorem exists_spares_loopBody :
    exists listing : Listing, exists table : Instruction,
      (Sample.loopBody.decode .standard).result Sample.metadata.resolve = .ok listing ∧
        (forall place, otherLoopCode[place]? ≠ Sample.loopBody.code[place]? ->
          exists index : Nat, exists instruction : Instruction,
            listing.get? index = some instruction ∧ instruction.Spares place) ∧
        listing.get? 4 = some table ∧ table.offset = 5 ∧ table.size = 13 := by
  have hchecked : (((Sample.loopBody.decode .standard).result
      Sample.metadata.resolve).toOption.any fun listing =>
        [3, 35].all (fun place => [2, 12].any fun index =>
          (listing.get? index).any fun instruction => instruction.Spares place) &&
        (listing.get? 4).any (fun table => table.offset = 5 && table.size = 13)) = true := by
    decide +kernel
  cases hresult : (Sample.loopBody.decode .standard).result Sample.metadata.resolve with
  | error error =>
      rw [hresult] at hchecked
      cases hchecked
  | ok listing =>
      rw [hresult] at hchecked
      rcases Bool.and_eq_true_iff.mp hchecked with ⟨hplaces, htable⟩
      rcases (Option.any_eq_true _ _).mp htable with ⟨table, hget, hplace⟩
      rcases Bool.and_eq_true_iff.mp hplace with ⟨hoffset, hsize⟩
      refine ⟨listing, table, rfl, ?_, hget, of_decide_eq_true hoffset,
        of_decide_eq_true hsize⟩
      intro place hchanged
      have hmem : place ∈ [3, 35] := by
        by_contra hother
        rw [List.mem_cons, List.mem_singleton, not_or] at hother
        exact hchanged (getElem?_otherLoopCode hother.1 hother.2)
      rcases List.any_eq_true.mp (List.all_eq_true.mp hplaces place hmem) with
        ⟨index, -, hany⟩
      rcases (Option.any_eq_true _ _).mp hany with ⟨instruction, hinstruction, hspares⟩
      exact ⟨index, instruction, hinstruction, of_decide_eq_true hspares⟩

theorem sameLayout_of_decode_loopBody :
    exists listing varied : Listing,
      (Sample.loopBody.decode .standard).result Sample.metadata.resolve = .ok listing ∧
        ((Sample.loopBody.withCode otherLoopCode).decode .standard).result
          Sample.metadata.resolve = .ok varied ∧
        varied ≠ listing ∧ varied.length = listing.length ∧
        varied.get? 4 = listing.get? 4 := by
  have hdiffers : ((Sample.loopBody.withCode otherLoopCode).decode .standard).result
      Sample.metadata.resolve ≠
        (Sample.loopBody.decode .standard).result Sample.metadata.resolve := by
    decide +kernel
  rcases exists_spares_loopBody with
    ⟨listing, table, hresult, hspares, hget, hoffset, hsize⟩
  rcases sameLayout_of_decode Catalog.ofDefinitions_standardSet Sample.loopBody
    Sample.metadata.resolve hresult (by decide +kernel) hspares with
    ⟨varied, hvaried, hlength, hsame⟩
  rcases hsame 4 table hget with ⟨other, hother, -, hkept⟩
  have hequal : other = table := by
    apply hkept
    intro place hle hlt
    rw [hoffset] at hle hlt
    rw [hsize] at hlt
    exact getElem?_otherLoopCode (by omega) (by omega)
  refine ⟨listing, varied, hresult, hvaried, ?_, hlength, ?_⟩
  · intro hlisting
    rw [hlisting] at hvaried
    exact hdiffers (hvaried.trans hresult.symm)
  · rw [hother, hget, hequal]

end MethodBody

end CilDisasm
