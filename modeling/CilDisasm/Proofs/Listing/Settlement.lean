import CilDisasm.Decoding.Body
import CilDisasm.Proofs.Listing.Resolution

/-!
# Matching targets in place

Targets can be matched one instruction after the other, in the listing itself, and each
target that nothing starts at is reported as soon as it has been looked up. Written this way
the pass is the same dialogue as the one that resolves all targets first and reports those
that are left: a step reports what its own instruction leaves unresolved, and steps at other
positions do not change that.
-/

namespace CilDisasm

namespace Dialogue

variable {α β : Type}

def tell (events : List Event) (value : α) : Dialogue α :=
  (reportAll events).bind fun _ => .done value

theorem reportAll_append_bind (first second : List Event) (next : Unit -> Dialogue α) :
    (reportAll (first ++ second)).bind next =
      (reportAll first).bind fun _ => (reportAll second).bind next := by
  induction first with
  | nil => rfl
  | cons event rest ih =>
      show ((report event).bind fun _ => reportAll (rest ++ second)).bind next =
        ((report event).bind fun _ => reportAll rest).bind _
      rw [Program.bind_assoc, Program.bind_assoc, ih]

theorem tell_bind_of_eq {first second : List Event} {value : α} {result : β}
    {next : α -> Dialogue β} (h : next value = tell second result) :
    (tell first value).bind next = tell (first ++ second) result := by
  rw [tell, tell, Program.bind_assoc, reportAll_append_bind]
  exact congrArg (Program.bind (reportAll first)) (funext fun _ => h)

theorem tell_bind_done (events : List Event) (value : α) (next : α -> β) :
    (tell events value).bind (fun result => .done (next result)) =
      tell events (next value) := by
  rw [tell, tell, Program.bind_assoc]
  rfl

end Dialogue

def Target.complaints : Target -> List Event
  | .resolved _ => []
  | .unresolved place => [.danglingTarget place]

namespace Instruction

def complaints (instruction : Instruction) : List Event :=
  instruction.targets.flatMap Target.complaints

theorem complaints_mapTargets (change : Target -> Target) {instruction : Instruction}
    (hbranch : instruction.opcode.format.isBranch = true) :
    (instruction.mapTargets change).complaints =
      (instruction.operand.mapTargets change).targets.flatMap Target.complaints := by
  rw [complaints, targets, opcode_mapTargets, if_pos hbranch, operand_mapTargets,
    if_pos hbranch]

theorem complaints_of_isBranch_eq_false {instruction : Instruction}
    (hother : instruction.opcode.format.isBranch = false) :
    instruction.complaints = [] := by
  rw [complaints, targets, hother]
  rfl

end Instruction

namespace Listing

open Dialogue (tell)

def settleTarget (listing : Listing) : Target -> Dialogue Target
  | .resolved label => .done (.resolved label)
  | .unresolved place =>
      match listing.labelAt? place with
      | some label => .done (.resolved label)
      | none => tell [.danglingTarget place] (.unresolved place)

/-- Looks up the entries of a jump table, from the first to the last. -/
def settleTable (listing : Listing) : List Target -> Dialogue (List Target)
  | [] => .done []
  | target :: rest =>
      (listing.settleTarget target).bind fun settled =>
        (listing.settleTable rest).bind fun others => .done (settled :: others)

def settleOperand (listing : Listing) : Operand -> Dialogue Operand
  | .branch target =>
      (listing.settleTarget target).bind fun settled => .done (.branch settled)
  | .switch targets =>
      (listing.settleTable targets).bind fun settled => .done (.switch settled)
  | operand => .done operand

/-- Takes the operand of the branch at one position out, looks its targets up in what is left,
and puts it back. -/
def settleAt (listing : Listing) (index : Nat) : Dialogue Listing :=
  match listing.get? index with
  | some instruction =>
      if instruction.opcode.format.isBranch then
        let emptied := listing.setOperand index .none
        (emptied.settleOperand instruction.operand).bind fun operand =>
          .done (emptied.setOperand index operand)
      else
        .done listing
  | none => .done listing

def settleInOrder : List Nat -> Listing -> Dialogue Listing
  | [], listing => .done listing
  | index :: rest, listing => (listing.settleAt index).bind (settleInOrder rest)

/-!
# One operand
-/

theorem settleTarget_eq (listing : Listing) (target : Target) :
    listing.settleTarget target =
      tell (listing.resolveTarget target).complaints (listing.resolveTarget target) := by
  cases target with
  | resolved label => rfl
  | unresolved place =>
      cases hlabel : listing.labelAt? place with
      | some label =>
          simp only [settleTarget, resolveTarget, hlabel]
          rfl
      | none =>
          simp only [settleTarget, resolveTarget, hlabel]
          rfl

theorem settleTable_eq (listing : Listing) (targets : List Target) :
    listing.settleTable targets =
      tell ((targets.map listing.resolveTarget).flatMap Target.complaints)
        (targets.map listing.resolveTarget) := by
  induction targets with
  | nil => rfl
  | cons target rest ih =>
      rw [settleTable, settleTarget_eq, List.map_cons, List.flatMap_cons]
      apply Dialogue.tell_bind_of_eq
      rw [ih, Dialogue.tell_bind_done]

theorem settleOperand_eq (listing : Listing) (operand : Operand) :
    listing.settleOperand operand =
      tell ((operand.mapTargets listing.resolveTarget).targets.flatMap Target.complaints)
        (operand.mapTargets listing.resolveTarget) := by
  cases operand with
  | branch target =>
      rw [settleOperand, settleTarget_eq, Dialogue.tell_bind_done, Operand.mapTargets,
        Operand.targets, List.flatMap_singleton]
  | switch targets =>
      rw [settleOperand, settleTable_eq, Dialogue.tell_bind_done]
      rfl
  | _ => rfl

/-!
# One step
-/

/-- What the step at a position reports. -/
def complaintsAt (listing : Listing) (index : Nat) : List Event :=
  ((listing.get? index).map Instruction.complaints).getD []

theorem settleAt_eq (listing : Listing) (index : Nat) :
    listing.settleAt index =
      tell (listing.resolveTargets.complaintsAt index) (listing.resolveAt index) := by
  rw [complaintsAt, get?_resolveTargets]
  unfold settleAt resolveAt
  cases hget : listing.get? index with
  | none => rfl
  | some instruction =>
      simp only [Option.map_some, Option.getD_some]
      cases hbranch : instruction.opcode.format.isBranch with
      | true =>
          rw [Instruction.complaints_mapTargets _ hbranch, settleOperand_eq,
            Dialogue.tell_bind_done,
            (sameLabels_setOperand listing index .none).resolveTarget_eq]
          rfl
      | false =>
          have hmapped : instruction.mapTargets listing.resolveTarget = instruction := by
            rw [Instruction.mapTargets, hbranch]
            rfl
          rw [hmapped, Instruction.complaints_of_isBranch_eq_false hbranch]
          rfl

/-!
# All steps
-/

theorem resolveTargets_resolveAt (listing : Listing) (index : Nat) :
    (listing.resolveAt index).resolveTargets = listing.resolveTargets := by
  apply ext_get?
  intro position
  rw [get?_resolveTargets, (sameLabels_resolveAt listing index).resolveTarget_eq,
    get?_resolveAt, get?_resolveTargets, Option.map_map]
  congr 1
  funext instruction
  by_cases hindex : index = position
  · simp [hindex, Instruction.mapTargets_mapTargets, resolveTarget_resolveTarget]
  · simp [hindex]

theorem settleInOrder_eq (listing : Listing) (order : List Nat) :
    listing.settleInOrder order =
      tell (order.flatMap listing.resolveTargets.complaintsAt)
        (listing.resolveInOrder order) := by
  induction order generalizing listing with
  | nil => rfl
  | cons index rest ih =>
      rw [settleInOrder, settleAt_eq, List.flatMap_cons]
      apply Dialogue.tell_bind_of_eq
      rw [ih, resolveTargets_resolveAt]
      rfl

theorem map_complaintsAt_range (listing : Listing) :
    (List.range listing.length).map listing.complaintsAt =
      listing.toList.map Instruction.complaints := by
  have hlength : listing.toList.length = listing.length := rfl
  apply List.ext_getElem
  · rw [List.length_map, List.length_map, List.length_range, hlength]
  · intro index hrange hlist
    rw [List.length_map] at hlist
    rw [List.getElem_map, List.getElem_map, List.getElem_range, complaintsAt,
      ← getElem?_toList, List.getElem?_eq_getElem hlist]
    rfl

theorem map_danglingTarget_danglingOffsets (listing : Listing) :
    listing.danglingOffsets.map .danglingTarget =
      listing.toList.flatMap Instruction.complaints := by
  rw [danglingOffsets, List.map_flatMap]
  congr 1
  funext instruction
  rw [Instruction.complaints, List.filterMap_eq_flatMap_toList, List.map_flatMap]
  congr 1
  funext target
  cases target <;> rfl

/-- Matched in place from the first position to the last, targets come to the same with the
same reports. -/
theorem settleInOrder_range (listing : Listing) :
    listing.settleInOrder (List.range listing.length) = listing.settle := by
  have hall : forall index, index < listing.length -> index ∈ List.range listing.length :=
    fun _ hindex => List.mem_range.mpr hindex
  have hlength := listing.length_resolveTargets
  rw [settleInOrder_eq, resolveInOrder_eq listing hall, ← hlength, List.flatMap_def,
    map_complaintsAt_range, ← List.flatMap_def, ← map_danglingTarget_danglingOffsets]
  rfl

end Listing

end CilDisasm
