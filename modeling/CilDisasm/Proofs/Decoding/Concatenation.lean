import CilDisasm.Proofs.Decoding.Relocation
import CilDisasm.Proofs.Decoding.Transcription

/-!
# Decoding code behind code

When the first part of a method body decodes, the whole decodes like the second part alone.
An error of the second part is the error of the whole, at the place where it then lies. A
listing of the second part follows the listing of the first one: opcodes and operands are the
same, offsets and the places of targets count the bytes in front, and only whether a target
is matched with an instruction is decided anew.
-/

namespace CilDisasm

def MethodBody.withCode (body : MethodBody) (code : List UInt8) : MethodBody :=
  { body with code := code }

/-!
# Moved instructions
-/

/-- The operand of an instruction that lies `distance` bytes further behind. Targets keep
their places relative to it, all else is as it was. -/
def Operand.Moves (distance : Nat) (operand other : Operand) : Prop :=
  match operand with
  | .branch target =>
      exists moved : Target, other = .branch moved ∧ moved.offset = target.offset + distance
  | .switch targets =>
      exists moved : List Target,
        other = .switch moved ∧
          List.Forall₂
            (fun target found : Target => found.offset = target.offset + distance)
            targets moved
  | operand => other = operand

structure Instruction.Moves (distance : Nat) (instruction other : Instruction) : Prop where
  offset_eq : other.offset = instruction.offset + distance
  opcode_eq : other.opcode = instruction.opcode
  operand : instruction.operand.Moves distance other.operand

/-- The listing of code behind code of `distance` bytes. -/
structure Listing.Joins (distance : Nat) (first second joined : Listing) : Prop where
  length_eq : joined.length = first.length + second.length
  front : forall {index : Nat} {instruction : Instruction},
    first.get? index = some instruction ->
    exists other : Instruction,
      joined.get? index = some other ∧ instruction.Moves 0 other
  back : forall {index : Nat} {instruction : Instruction},
    second.get? index = some instruction ->
    exists other : Instruction,
      joined.get? (first.length + index) = some other ∧ instruction.Moves distance other
  isResolved_iff : forall {index : Nat} {instruction : Instruction} {target : Target},
    joined.get? index = some instruction ->
    target ∈ instruction.operand.targets ->
    (target.isResolved = true <->
      exists position : Nat, exists found : Instruction,
        joined.get? position = some found ∧ (found.offset : Int) = target.offset)

namespace Listing

variable {listing other : Listing}

theorem Lands.isResolved_iff {place : Int} {target : Target} (h : listing.Lands place target) :
    target.isResolved = true <->
      exists index : Nat, exists instruction : Instruction,
        listing.get? index = some instruction ∧ (instruction.offset : Int) = place := by
  cases h with
  | resolved hget hplace _ _ => exact ⟨fun _ => ⟨_, _, hget, hplace⟩, fun _ => rfl⟩
  | unresolved hnone _ =>
      constructor
      · intro h
        cases h
      · intro h
        rcases h with ⟨index, instruction, hget, hplace⟩
        exact absurd hplace (hnone index instruction hget)

theorem Links.lands_of_mem {operand linked : Operand} (h : listing.Links operand linked)
    {target : Target} (htarget : target ∈ linked.targets) :
    listing.Lands target.offset target := by
  cases operand with
  | branch former =>
      rcases h with ⟨landed, hlands, rfl⟩
      rw [List.mem_singleton.mp htarget, hlands.offset_eq]
      exact hlands
  | switch formers =>
      rcases h with ⟨landed, hlands, rfl⟩
      rcases List.getElem_of_mem htarget with ⟨index, hindex, rfl⟩
      have hone : listing.Lands _ landed[index] :=
        hlands.get (hlands.length_eq ▸ hindex) hindex
      show listing.Lands landed[index].offset landed[index]
      rw [hone.offset_eq]
      exact hone
  | _ =>
      have hlinked := h.eq_of_targets_eq_nil rfl
      rw [hlinked] at htarget
      cases htarget

theorem Links.moves {operand linked moved : Operand} {distance : Nat}
    (h : listing.Links operand linked)
    (hmoved : other.Links (operand.mapTargets (Target.moved distance)) moved) :
    linked.Moves distance moved := by
  cases operand with
  | branch target =>
      rcases h with ⟨landed, hlands, rfl⟩
      rcases hmoved with ⟨found, hfound, rfl⟩
      refine ⟨found, rfl, ?_⟩
      rw [hfound.offset_eq, hlands.offset_eq]
      rfl
  | switch targets =>
      rcases h with ⟨landed, hlands, rfl⟩
      rcases hmoved with ⟨found, hfound, rfl⟩
      refine ⟨found, rfl, ?_⟩
      rw [List.forall₂_map_left_iff] at hfound
      induction hlands generalizing found with
      | nil =>
          cases hfound
          exact List.Forall₂.nil
      | cons hfirst _ ih =>
          cases hfound with
          | cons hother hrest =>
              refine List.Forall₂.cons ?_ (ih _ hrest)
              rw [hother.offset_eq, hfirst.offset_eq]
              rfl
  | _ =>
      have hlinked := h.eq_of_targets_eq_nil rfl
      have hfound := hmoved.eq_of_targets_eq_nil rfl
      rw [hlinked, hfound]
      rfl

end Listing

/-!
# Statements behind statements
-/

open Statement (codeOf offsetAt)

namespace Statement

theorem offsetAt_append_of_le {first : List Statement} {index : Nat}
    (hindex : index ≤ first.length) (second : List Statement) :
    offsetAt (first ++ second) index = offsetAt first index := by
  rw [offsetAt, offsetAt, List.take_append_of_le_length hindex]

theorem offsetAt_append_add (first second : List Statement) (index : Nat) :
    offsetAt (first ++ second) (first.length + index) =
      offsetAt second index + (codeOf first).length := by
  rw [offsetAt, offsetAt, List.take_append, List.take_of_length_le (Nat.le_add_right _ _),
    Nat.add_sub_cancel_left, codeOf_append, List.length_append, Nat.add_comm]

end Statement

namespace MethodBody

variable {body : MethodBody} {oracle : Oracle} {catalog : Catalog}

theorem length_withCode_append_lt {first second : List UInt8}
    (hlength : first.length + second.length < codeLengthLimit) :
    (body.withCode (first ++ second)).code.length < codeLengthLimit := by
  show (first ++ second).length < codeLengthLimit
  rw [List.length_append]
  exact hlength

theorem denotes_withCode_iff {payload : Payload} {code : List UInt8} {limit : Nat}
    {operand : Operand} :
    payload.Denotes oracle (body.withCode code) limit operand <->
      payload.Denotes oracle body limit operand := by
  cases payload <;> exact Iff.rfl

theorem resolves_withCode_iff {payload : Payload} {code : List UInt8} :
    payload.Resolves oracle (body.withCode code) <-> payload.Resolves oracle body := by
  cases payload <;> exact Iff.rfl

theorem extend_withCode (code : List UInt8) (segments : List Segment) (listing : Listing) :
    Listing.extend (body.withCode code) segments listing =
      Listing.extend body segments listing := by
  have hoperand : forall segment : Segment,
      segment.operand (body.withCode code) = segment.operand body := by
    intro segment
    rcases segment with ⟨offset, opcode, payload, limit⟩
    cases payload <;> rfl
  induction segments generalizing listing with
  | nil => rfl
  | cons segment rest ih => simp only [Listing.extend, hoperand, ih]

namespace Transcribes

variable {first second : List UInt8} {statements others : List Statement}
  {operands rest : List Operand}

theorem append
    (h : (body.withCode first).Transcribes oracle catalog statements operands)
    (h' : (body.withCode second).Transcribes oracle catalog others rest) :
    (body.withCode (first ++ second)).Transcribes oracle catalog (statements ++ others)
      (operands.map (Operand.mapTargets (Target.moved 0)) ++
        rest.map (Operand.mapTargets (Target.moved first.length))) where
  codeOf_eq := by
    rw [Statement.codeOf_append, h.codeOf_eq, h'.codeOf_eq]
    rfl
  legal := by
    intro statement hstatement
    rcases List.mem_append.mp hstatement with hfront | hback
    · exact h.legal statement hfront
    · exact h'.legal statement hback
  length_eq := by
    rw [List.length_append, List.length_map, List.length_map, List.length_append,
      h.length_eq, h'.length_eq]
  denotes := by
    intro index statement operand hstatement hoperand
    have hlengths : (operands.map (Operand.mapTargets (Target.moved 0))).length =
        statements.length := by
      rw [List.length_map, h.length_eq]
    have hcode : (codeOf statements).length = first.length :=
      congrArg List.length h.codeOf_eq
    apply denotes_withCode_iff.mpr
    by_cases hindex : index < statements.length
    · rw [List.getElem?_append_left hindex] at hstatement
      rw [List.getElem?_append_left (hlengths ▸ hindex), List.getElem?_map] at hoperand
      rcases Option.map_eq_some_iff.mp hoperand with ⟨former, hformer, rfl⟩
      rw [Statement.offsetAt_append_of_le hindex]
      exact (denotes_withCode_iff.mp (h.denotes hstatement hformer)).moved 0
    · have hle := Nat.le_of_not_lt hindex
      rw [List.getElem?_append_right hle] at hstatement
      rw [List.getElem?_append_right (hlengths ▸ hle), hlengths, List.getElem?_map]
        at hoperand
      rcases Option.map_eq_some_iff.mp hoperand with ⟨former, hformer, rfl⟩
      have hnext : index + 1 = statements.length + (index - statements.length + 1) := by
        rw [← Nat.add_assoc, Nat.add_sub_cancel' hle]
      rw [hnext, Statement.offsetAt_append_add, hcode]
      exact (denotes_withCode_iff.mp (h'.denotes hstatement hformer)).moved first.length

/-- The same statement makes the same instruction in two listings, apart from where it lies. -/
theorem Renders.moves {listing joined : Listing} {position index distance : Nat}
    {statement : Statement} {instruction found : Instruction} {moved : List Operand}
    (h : Renders listing statements operands index statement instruction)
    (h' : Renders joined others moved position statement found)
    (hoffset : offsetAt others position = offsetAt statements index + distance)
    (hoperand : moved[position]? =
      operands[index]?.map (Operand.mapTargets (Target.moved distance))) :
    instruction.Moves distance found := by
  rcases h.links with ⟨operand, hget, hlinks⟩
  rcases h'.links with ⟨other, hother, hlinks'⟩
  rw [hoperand, hget] at hother
  cases hother
  constructor
  · rw [h'.offset_eq, h.offset_eq, hoffset]
  · rw [h'.opcode_eq, h.opcode_eq]
  · exact hlinks.moves hlinks'

theorem joins (hcatalog : catalog.Coherent)
    (h : (body.withCode first).Transcribes oracle catalog statements operands)
    (h' : (body.withCode second).Transcribes oracle catalog others rest)
    (hlength : first.length + second.length < codeLengthLimit) :
    Listing.Joins first.length (Listing.compose statements operands).resolveTargets
      (Listing.compose others rest).resolveTargets
      (Listing.compose (statements ++ others)
        (operands.map (Operand.mapTargets (Target.moved 0)) ++
          rest.map (Operand.mapTargets (Target.moved first.length)))).resolveTargets := by
  have hjoined := h.append h'
  have hfirst : first.length < codeLengthLimit :=
    Nat.lt_of_le_of_lt (Nat.le_add_right _ _) hlength
  have hsecond : second.length < codeLengthLimit :=
    Nat.lt_of_le_of_lt (Nat.le_add_left _ _) hlength
  have hlimit : (body.withCode (first ++ second)).code.length < codeLengthLimit :=
    length_withCode_append_lt hlength
  have hcode : (codeOf statements).length = first.length :=
    congrArg List.length h.codeOf_eq
  constructor
  · rw [Listing.length_resolveTargets, Listing.length_resolveTargets,
      Listing.length_resolveTargets, h.length_compose, h'.length_compose,
      hjoined.length_compose, List.length_append]
  · intro index instruction hget
    rcases h.exists_renders hcatalog hfirst hget with ⟨statement, hstatement, hrenders⟩
    rcases List.getElem?_eq_some_iff.mp hstatement with ⟨hindex, -⟩
    have hfront : (statements ++ others)[index]? = some statement := by
      rw [List.getElem?_append_left hindex, hstatement]
    rcases hjoined.exists_instruction hcatalog hlimit hfront with ⟨found, hfound, hrenders'⟩
    refine ⟨found, hfound, hrenders.moves hrenders' ?_ ?_⟩
    · exact Statement.offsetAt_append_of_le (Nat.le_of_lt hindex) others
    · rw [List.getElem?_append_left, List.getElem?_map]
      rw [List.length_map, h.length_eq]
      exact hindex
  · intro index instruction hget
    rcases h'.exists_renders hcatalog hsecond hget with ⟨statement, hstatement, hrenders⟩
    have hback : (statements ++ others)[statements.length + index]? = some statement := by
      rw [List.getElem?_append_right (Nat.le_add_right _ _), Nat.add_sub_cancel_left,
        hstatement]
    rcases hjoined.exists_instruction hcatalog hlimit hback with ⟨found, hfound, hrenders'⟩
    rw [Listing.length_resolveTargets, h.length_compose]
    refine ⟨found, hfound, hrenders.moves hrenders' ?_ ?_⟩
    · rw [Statement.offsetAt_append_add, hcode]
    · rw [List.getElem?_append_right, List.length_map, h.length_eq,
        Nat.add_sub_cancel_left, List.getElem?_map]
      rw [List.length_map, h.length_eq]
      exact Nat.le_add_right _ _
  · intro index instruction target hget htarget
    rcases hjoined.exists_renders hcatalog hlimit hget with ⟨_, -, hrenders⟩
    rcases hrenders.links with ⟨operand, -, hlinks⟩
    exact (hlinks.lands_of_mem htarget).isResolved_iff

end Transcribes

/-!
# Decoding
-/

/-- Decoding fails where a segment has no operand, or else where the cut ends. -/
theorem returns_decode_error_iff (hlength : body.code.length < codeLengthLimit)
    {error : DecodeError} :
    Dialogue.Returns oracle (body.decode catalog) (.error error) <->
      Dialogue.Returns oracle
          (Listing.empty.extend body (Cut.ofCode catalog body.code).segments.toList)
          (.error error) ∨
        exists listing : Listing, exists offset : Nat, exists fault : SegmentFault,
          Dialogue.Returns oracle
              (Listing.empty.extend body (Cut.ofCode catalog body.code).segments.toList)
              (.ok listing) ∧
            (Cut.ofCode catalog body.code).fault = some (offset, fault) ∧
            error = .ofFault offset fault := by
  unfold decode
  rw [if_neg (Nat.not_le.mpr hlength)]
  refine Program.returns_bind_iff.trans ?_
  constructor
  · intro h
    rcases h with ⟨outcome, hextend, hrest⟩
    cases outcome with
    | error found =>
        cases Program.returns_done_iff.mp hrest
        exact Or.inl hextend
    | ok listing =>
        cases hfault : (Cut.ofCode catalog body.code).fault with
        | some place =>
            simp only [hfault] at hrest
            cases Program.returns_done_iff.mp hrest
            exact Or.inr ⟨listing, place.1, place.2, hextend, rfl, rfl⟩
        | none =>
            simp only [hfault] at hrest
            have hsettled := Listing.returns_settle_bind_iff.mp hrest
            cases Program.returns_done_iff.mp hsettled
  · intro h
    rcases h with hextend | ⟨listing, offset, fault, hextend, hfault, rfl⟩
    · exact ⟨.error error, hextend, Program.Returns.done _⟩
    · refine ⟨.ok listing, hextend, ?_⟩
      simp only [hfault]
      exact Program.Returns.done _

theorem Transcribes.returns_extend_append {statements : List Statement}
    {operands : List Operand} (h : body.Transcribes oracle catalog statements operands)
    {segments : List Segment} {outcome : Except DecodeError Listing}
    (hsegments : Dialogue.Returns oracle
      (Listing.extend body segments (Listing.compose statements operands)) outcome) :
    Dialogue.Returns oracle
      (Listing.empty.extend body (Statement.layOut 0 statements ++ segments)) outcome := by
  rw [Listing.extend_append]
  refine Program.returns_bind_iff.mpr
    ⟨.ok (Listing.compose statements operands), ?_, hsegments⟩
  apply Listing.returns_extend_ok_iff.mpr
  exact ⟨operands, forall₂_denotes_layOut_iff.mpr ⟨h.length_eq, h.denotes⟩, rfl⟩

theorem exists_returns_extend_moved {segments : List Segment} {listing result : Listing}
    (distance : Nat) (other : Listing)
    (h : Dialogue.Returns oracle (Listing.extend body segments listing) (.ok result)) :
    exists moved : Listing,
      Dialogue.Returns oracle
        (Listing.extend body (segments.map (Segment.moved distance)) other)
        (.ok moved) := by
  rcases Listing.returns_extend_ok_iff.mp h with ⟨operands, hdenotes, -⟩
  refine ⟨_, Listing.returns_extend_ok_iff.mpr
    ⟨operands.map (Operand.mapTargets (Target.moved distance)), ?_, rfl⟩⟩
  rw [List.forall₂_map_left_iff, List.forall₂_map_right_iff]
  exact hdenotes.imp fun _ _ hdenotes => hdenotes.moved distance

theorem returns_decode_append_error (hcatalog : catalog.Coherent) {first second : List UInt8}
    (hlength : first.length + second.length < codeLengthLimit) {statements : List Statement}
    {operands : List Operand}
    (hfirst : (body.withCode first).Transcribes oracle catalog statements operands)
    {error : DecodeError}
    (hsecond : Dialogue.Returns oracle ((body.withCode second).decode catalog)
      (.error error)) :
    Dialogue.Returns oracle ((body.withCode (first ++ second)).decode catalog)
      (.error (error.moved first.length)) := by
  have hshort : (body.withCode second).code.length < codeLengthLimit :=
    Nat.lt_of_le_of_lt (Nat.le_add_left _ _) hlength
  have hlimit : (body.withCode (first ++ second)).code.length < codeLengthLimit :=
    length_withCode_append_lt hlength
  have hcode : codeOf statements = first := hfirst.codeOf_eq
  have hcut := Cut.ofCode_append hcatalog hfirst.legal second
  rw [hcode] at hcut
  have hextend : forall outcome : Except DecodeError Listing,
      Dialogue.Returns oracle
        (Listing.extend body
          ((Cut.ofCode catalog second).segments.toList.map (Segment.moved first.length))
          (Listing.compose statements operands)) outcome ->
      Dialogue.Returns oracle
        (Listing.empty.extend (body.withCode (first ++ second))
          (Cut.ofCode catalog (first ++ second)).segments.toList) outcome := by
    intro outcome houtcome
    rw [extend_withCode, hcut, List.toList_toArray, ← extend_withCode first]
    rw [← extend_withCode first] at houtcome
    exact hfirst.returns_extend_append houtcome
  apply (returns_decode_error_iff hlimit).mpr
  rcases (returns_decode_error_iff hshort).mp hsecond with
    hfailed | ⟨listing, offset, fault, hlisting, hfault, rfl⟩
  · rw [extend_withCode] at hfailed
    exact Or.inl (hextend _ (Listing.returns_extend_moved first.length _ hfailed))
  · rw [extend_withCode] at hlisting
    rcases exists_returns_extend_moved first.length
      (Listing.compose statements operands) hlisting with ⟨joined, hjoined⟩
    refine Or.inr ⟨joined, offset + first.length, fault.moved first.length,
      hextend _ hjoined, ?_, DecodeError.moved_ofFault _ _ _⟩
    have hfault' : (Cut.ofCode catalog second).fault = some (offset, fault) := hfault
    show (Cut.ofCode catalog (first ++ second)).fault = _
    rw [hcut, hfault']
    rfl

/-- Behind code that decodes, other code is decoded as it is alone. -/
theorem result_decode_append {definitions : List Opcode}
    (hcatalog : Catalog.ofDefinitions definitions = .ok catalog) (body : MethodBody)
    (resolver : Resolver) (first second : List UInt8)
    (hlength : first.length + second.length < codeLengthLimit) {listing : Listing}
    (hfirst : ((body.withCode first).decode catalog).result resolver = .ok listing) :
    (forall error : DecodeError,
        ((body.withCode second).decode catalog).result resolver = .error error ->
        ((body.withCode (first ++ second)).decode catalog).result resolver =
          .error (error.moved first.length)) ∧
      forall other : Listing,
        ((body.withCode second).decode catalog).result resolver = .ok other ->
        exists joined : Listing,
          ((body.withCode (first ++ second)).decode catalog).result resolver = .ok joined ∧
            Listing.Joins first.length listing other joined := by
  have hcoherent := Catalog.coherent_ofDefinitions hcatalog
  rcases (returns_decode_ok_iff hcoherent).mp (Dialogue.result_eq_iff_returns.mp hfirst) with
    ⟨-, statements, operands, htranscribes, rfl⟩
  constructor
  · intro error hsecond
    apply Dialogue.result_eq_iff_returns.mpr
    exact returns_decode_append_error hcoherent hlength htranscribes
      (Dialogue.result_eq_iff_returns.mp hsecond)
  · intro other hsecond
    rcases (returns_decode_ok_iff hcoherent).mp
      (Dialogue.result_eq_iff_returns.mp hsecond) with ⟨-, others, rest, hothers, rfl⟩
    refine ⟨_, ?_, htranscribes.joins hcoherent hothers hlength⟩
    apply Dialogue.result_eq_iff_returns.mpr
    apply (returns_decode_ok_iff hcoherent).mpr
    exact ⟨length_withCode_append_lt hlength, _, _, htranscribes.append hothers, rfl⟩

/-- A branch to the end of its code, once in front of code that breaks off in an operand and
once in front of the instruction that it then leads to. -/
theorem result_decode_append_branchToEnd :
    (((MethodBody.ofCode []).withCode ([0x2B, 0x00] ++ [0x20, 0x01])).decode .standard).result
          Sample.metadata.resolve =
        .error (.outOfRange { position := 3, needed := 4, length := 4 }) ∧
      exists listing : Listing, exists other : Listing, exists joined : Listing,
        (((MethodBody.ofCode []).withCode [0x2B, 0x00]).decode .standard).result
            Sample.metadata.resolve = .ok listing ∧
          (((MethodBody.ofCode []).withCode [0x2A]).decode .standard).result
            Sample.metadata.resolve = .ok other ∧
          (((MethodBody.ofCode []).withCode ([0x2B, 0x00] ++ [0x2A])).decode .standard).result
            Sample.metadata.resolve = .ok joined ∧
          Listing.Joins 2 listing other joined := by
  have hparts :
      (forall code, code ∈ [[0x2B, 0x00], [0x2A]] ->
          ((((MethodBody.ofCode []).withCode code).decode .standard).result
            Sample.metadata.resolve |>.toOption.any fun listing =>
              listing.toList.all fun _ => true) = true) ∧
        (((MethodBody.ofCode []).withCode [0x20, 0x01]).decode .standard).result
            Sample.metadata.resolve =
          .error (.outOfRange { position := 1, needed := 4, length := 2 }) := by
    decide +kernel
  rcases Listing.exists_of_all (hparts.1 [0x2B, 0x00] (by decide)) with ⟨listing, hlisting, -⟩
  rcases Listing.exists_of_all (hparts.1 [0x2A] (by decide)) with ⟨other, hother, -⟩
  constructor
  · exact (result_decode_append Catalog.ofDefinitions_standardSet (MethodBody.ofCode [])
      Sample.metadata.resolve [0x2B, 0x00] [0x20, 0x01] (by decide) hlisting).1 _ hparts.2
  · rcases (result_decode_append Catalog.ofDefinitions_standardSet (MethodBody.ofCode [])
      Sample.metadata.resolve [0x2B, 0x00] [0x2A] (by decide) hlisting).2 other hother with
      ⟨joined, hjoined, hjoins⟩
    exact ⟨listing, other, joined, hlisting, hother, hjoined, hjoins⟩

end MethodBody

end CilDisasm
