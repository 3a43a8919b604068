import CilDisasm.Opcode.Standard
import CilDisasm.Proofs.Listing.Offsets

/-!
# Resolving targets in place

Targets can be resolved one instruction after the other, in the listing itself: the operand
of a branch is taken out, its targets are looked up in what is left, and the operand is put
back. A lookup sees labels only, and no step changes a label. So every step finds what it
would have found in the listing as it was, the order of the steps has no influence, and a
second pass over the listing finds nothing new.
-/

namespace CilDisasm

/-- A target before and after resolving. It keeps its place, and a label stays as it is. -/
structure Target.Settles (target settled : Target) : Prop where
  offset_eq : settled.offset = target.offset
  eq_of_isResolved : target.isResolved = true -> settled = target

/-- An operand before and after resolving. Only targets settle, one by one. -/
inductive Operand.Settles : Operand -> Operand -> Prop where
  | branch {target settled : Target} :
      target.Settles settled ->
      Settles (.branch target) (.branch settled)
  | switch {targets settled : List Target} :
      List.Forall₂ Target.Settles targets settled ->
      Settles (.switch targets) (.switch settled)
  | kept (operand : Operand) : Settles operand operand

structure Instruction.Settles (instruction settled : Instruction) : Prop where
  index_eq : settled.index = instruction.index
  offset_eq : settled.offset = instruction.offset
  opcode_eq : settled.opcode = instruction.opcode
  previous_eq : settled.previous = instruction.previous
  next_eq : settled.next = instruction.next
  size_eq : settled.size = instruction.size
  operand_eq : instruction.opcode.format.isBranch = false ->
    settled.operand = instruction.operand
  operand_settles : instruction.operand.Settles settled.operand

namespace Listing

def setOperand (listing : Listing) (index : Nat) (operand : Operand) : Listing :=
  { instructions := listing.instructions.modify index
      (fun instruction => { instruction with operand := operand }) }

/-- Takes the operand of the branch at one position out, resolves its targets in what is
left, and puts it back. -/
def resolveAt (listing : Listing) (index : Nat) : Listing :=
  match listing.get? index with
  | some instruction =>
      if instruction.opcode.format.isBranch then
        let emptied := listing.setOperand index .none
        emptied.setOperand index (instruction.operand.mapTargets emptied.resolveTarget)
      else
        listing
  | none => listing

def resolveInOrder (listing : Listing) (order : List Nat) : Listing :=
  order.foldl resolveAt listing

theorem ext_get? {listing other : Listing}
    (h : forall index, listing.get? index = other.get? index) : listing = other := by
  rcases listing with ⟨instructions⟩
  rcases other with ⟨others⟩
  exact congrArg Listing.mk (Array.ext_getElem? h)

/-!
# Labels decide where targets lead
-/

def SameLabels (listing other : Listing) : Prop :=
  forall index, (other.get? index).map Instruction.label =
    (listing.get? index).map Instruction.label

section SameLabels

variable {listing other last : Listing}

theorem SameLabels.refl (listing : Listing) : listing.SameLabels listing :=
  fun _ => rfl

theorem SameLabels.trans (h : listing.SameLabels other) (h' : other.SameLabels last) :
    listing.SameLabels last :=
  fun index => (h' index).trans (h index)

theorem SameLabels.get?_eq_none_iff (h : listing.SameLabels other) {index : Nat} :
    other.get? index = none <-> listing.get? index = none := by
  rw [← Option.map_eq_none_iff (f := Instruction.label), h index, Option.map_eq_none_iff]

theorem SameLabels.length_eq (h : listing.SameLabels other) :
    other.length = listing.length := by
  apply Nat.le_antisymm
  · exact Listing.get?_eq_none_iff.mp
      (h.get?_eq_none_iff.mpr (Listing.get?_eq_none_iff.mpr (Nat.le_refl _)))
  · exact Listing.get?_eq_none_iff.mp
      (h.get?_eq_none_iff.mp (Listing.get?_eq_none_iff.mpr (Nat.le_refl _)))

theorem SameLabels.exists_of_get? (h : listing.SameLabels other) {index : Nat}
    {instruction : Instruction} (hget : listing.get? index = some instruction) :
    exists found : Instruction,
      other.get? index = some found ∧ found.label = instruction.label := by
  have hlabel := h index
  rw [hget] at hlabel
  exact Option.map_eq_some_iff.mp hlabel

theorem searchOffset_of_get? {offset low high : Nat} {middle : Instruction}
    (hlt : low < high) (hget : listing.get? ((low + high) / 2) = some middle) :
    listing.searchOffset offset low high =
      if middle.offset = offset then some middle
      else if middle.offset < offset then
        listing.searchOffset offset ((low + high) / 2 + 1) high
      else
        listing.searchOffset offset low ((low + high) / 2) := by
  rw [searchOffset, if_pos hlt, hget]

theorem SameLabels.map_label_searchOffset (h : listing.SameLabels other)
    (offset low high : Nat) :
    (other.searchOffset offset low high).map Instruction.label =
      (listing.searchOffset offset low high).map Instruction.label := by
  induction low, high using searchOffset.induct listing offset with
  | case1 low high hlt middle hget hoffset =>
      rcases h.exists_of_get? hget with ⟨found, hfound, hlabel⟩
      have hsame : found.offset = middle.offset := congrArg Label.offset hlabel
      rw [searchOffset_of_get? hlt hfound, searchOffset_of_get? hlt hget, hsame,
        if_pos hoffset, if_pos hoffset, Option.map_some, Option.map_some, hlabel]
  | case2 low high hlt middle hget hne hless ih =>
      rcases h.exists_of_get? hget with ⟨found, hfound, hlabel⟩
      have hsame : found.offset = middle.offset := congrArg Label.offset hlabel
      rw [searchOffset_of_get? hlt hfound, searchOffset_of_get? hlt hget, hsame,
        if_neg hne, if_neg hne, if_pos hless, if_pos hless, ih]
  | case3 low high hlt middle hget hne hless ih =>
      rcases h.exists_of_get? hget with ⟨found, hfound, hlabel⟩
      have hsame : found.offset = middle.offset := congrArg Label.offset hlabel
      rw [searchOffset_of_get? hlt hfound, searchOffset_of_get? hlt hget, hsame,
        if_neg hne, if_neg hne, if_neg hless, if_neg hless, ih]
  | case4 low high hlt hget =>
      have hnone := h.get?_eq_none_iff.mpr hget
      unfold searchOffset
      simp only [if_pos hlt, hget, hnone]
  | case5 low high hge =>
      unfold searchOffset
      simp only [if_neg hge]

theorem SameLabels.labelAt?_eq (h : listing.SameLabels other) (place : Int) :
    other.labelAt? place = listing.labelAt? place := by
  unfold labelAt? atOffset?
  rw [h.length_eq, h.map_label_searchOffset]

theorem SameLabels.resolveTarget_eq (h : listing.SameLabels other) :
    other.resolveTarget = listing.resolveTarget := by
  funext target
  cases target with
  | resolved label => rfl
  | unresolved place =>
      rw [resolveTarget, resolveTarget, h.labelAt?_eq]

theorem sameLabels_of_get?_eq {change : Nat -> Instruction -> Instruction}
    (hlabel : forall index instruction, (change index instruction).label = instruction.label)
    (h : forall index, other.get? index = (listing.get? index).map (change index)) :
    listing.SameLabels other := by
  intro index
  rw [h index, Option.map_map]
  congr 1
  funext instruction
  exact hlabel index instruction

end SameLabels

/-!
# One step
-/

theorem get?_setOperand (listing : Listing) (index : Nat) (operand : Operand)
    (position : Nat) :
    (listing.setOperand index operand).get? position =
      (listing.get? position).map (fun instruction =>
        if index = position then { instruction with operand := operand }
        else instruction) := by
  unfold setOperand get?
  rw [Array.getElem?_modify]
  split
  · rfl
  · exact Option.map_id'.symm

theorem sameLabels_setOperand (listing : Listing) (index : Nat) (operand : Operand) :
    listing.SameLabels (listing.setOperand index operand) := by
  refine sameLabels_of_get?_eq ?_ (get?_setOperand listing index operand)
  intro position instruction
  split <;> rfl

theorem get?_resolveAt (listing : Listing) (index position : Nat) :
    (listing.resolveAt index).get? position =
      (listing.get? position).map (fun instruction =>
        if index = position then instruction.mapTargets listing.resolveTarget
        else instruction) := by
  unfold resolveAt
  split
  · next instruction hget =>
      split
      · next hbranch =>
          rw [get?_setOperand, get?_setOperand, Option.map_map,
            (sameLabels_setOperand listing index .none).resolveTarget_eq]
          by_cases hindex : index = position
          · subst hindex
            simp [hget, Instruction.mapTargets, hbranch]
          · simp [hindex, Function.comp_def]
      · next hother =>
          by_cases hindex : index = position
          · subst hindex
            simp [hget, Instruction.mapTargets, hother]
          · simp [hindex]
  · next hnone =>
      by_cases hindex : index = position
      · subst hindex
        rw [hnone]
        rfl
      · simp [hindex]

theorem label_mapTargets (change : Target -> Target) (instruction : Instruction) :
    (instruction.mapTargets change).label = instruction.label := by
  unfold Instruction.mapTargets
  split <;> rfl

theorem sameLabels_resolveAt (listing : Listing) (index : Nat) :
    listing.SameLabels (listing.resolveAt index) := by
  refine sameLabels_of_get?_eq ?_ (get?_resolveAt listing index)
  intro position instruction
  split
  · exact label_mapTargets _ _
  · rfl

theorem sameLabels_resolveTargets (listing : Listing) :
    listing.SameLabels listing.resolveTargets :=
  sameLabels_of_get?_eq (fun _ _ => label_mapTargets _ _) (get?_resolveTargets listing)

/-!
# All steps
-/

theorem resolveTarget_resolveTarget (listing : Listing) (target : Target) :
    listing.resolveTarget (listing.resolveTarget target) = listing.resolveTarget target := by
  cases target with
  | resolved label => rfl
  | unresolved place =>
      cases hlabel : listing.labelAt? place with
      | some label => simp only [resolveTarget, hlabel]
      | none => simp only [resolveTarget, hlabel]

end Listing

theorem Operand.mapTargets_mapTargets (first second : Target -> Target) (operand : Operand) :
    (operand.mapTargets first).mapTargets second =
      operand.mapTargets (fun target => second (first target)) := by
  cases operand with
  | switch targets => simp only [mapTargets, List.map_map, Function.comp_def]
  | _ => rfl

theorem Instruction.mapTargets_mapTargets (first second : Target -> Target)
    (instruction : Instruction) :
    (instruction.mapTargets first).mapTargets second =
      instruction.mapTargets (fun target => second (first target)) := by
  by_cases hbranch : instruction.opcode.format.isBranch = true
  · simp only [mapTargets, hbranch, if_true, Operand.mapTargets_mapTargets]
  · simp only [mapTargets, hbranch, if_false, Bool.false_eq_true]

namespace Listing

/-- Whatever steps have been made, the positions among them are resolved with the labels that
the listing had all along, and the others are as they were. -/
theorem get?_resolveInOrder {listing current : Listing} (h : listing.SameLabels current)
    (order : List Nat) (position : Nat) :
    (current.resolveInOrder order).get? position =
      (current.get? position).map (fun instruction =>
        if position ∈ order then instruction.mapTargets listing.resolveTarget
        else instruction) := by
  induction order generalizing current with
  | nil => simp [resolveInOrder]
  | cons index rest ih =>
      have hnext := h.trans (sameLabels_resolveAt current index)
      show ((current.resolveAt index).resolveInOrder rest).get? position = _
      rw [ih hnext, get?_resolveAt, h.resolveTarget_eq, Option.map_map]
      congr 1
      funext instruction
      by_cases hindex : index = position
      · subst hindex
        simp [Instruction.mapTargets_mapTargets, resolveTarget_resolveTarget]
      · simp [hindex, Ne.symm hindex]

theorem resolveInOrder_eq (listing : Listing) {order : List Nat}
    (horder : forall index, index < listing.length -> index ∈ order) :
    listing.resolveInOrder order = listing.resolveTargets := by
  apply ext_get?
  intro index
  rw [get?_resolveInOrder (SameLabels.refl listing), get?_resolveTargets]
  cases hget : listing.get? index with
  | none => rfl
  | some instruction =>
      have hmem := horder index (lt_length_of_get? hget)
      simp only [Option.map_some, hmem, if_true]

theorem resolveTargets_resolveTargets (listing : Listing) :
    listing.resolveTargets.resolveTargets = listing.resolveTargets := by
  apply ext_get?
  intro index
  rw [get?_resolveTargets, (sameLabels_resolveTargets listing).resolveTarget_eq,
    get?_resolveTargets, Option.map_map]
  congr 1
  funext instruction
  simp [Instruction.mapTargets_mapTargets, resolveTarget_resolveTarget]

/-!
# What resolving leaves as it is
-/

theorem settles_resolveTarget {listing : Listing} (hascending : listing.Ascending)
    (target : Target) : target.Settles (listing.resolveTarget target) where
  offset_eq := offset_resolveTarget hascending target
  eq_of_isResolved := by
    intro hresolved
    cases target with
    | resolved label => rfl
    | unresolved place => cases hresolved

end Listing

theorem Operand.settles_mapTargets {change : Target -> Target}
    (hchange : forall target : Target, target.Settles (change target)) (operand : Operand) :
    operand.Settles (operand.mapTargets change) := by
  cases operand with
  | branch target => exact Settles.branch (hchange target)
  | switch targets =>
      apply Settles.switch
      rw [List.forall₂_map_right_iff, List.forall₂_same]
      intro target _
      exact hchange target
  | _ => exact Settles.kept _

theorem Instruction.settles_mapTargets {change : Target -> Target}
    (hchange : forall target : Target, target.Settles (change target))
    (instruction : Instruction) : instruction.Settles (instruction.mapTargets change) := by
  constructor
  case size_eq => exact size_mapTargets change instruction
  case operand_eq =>
    intro hother
    rw [operand_mapTargets, hother]
    rfl
  case operand_settles =>
    rw [operand_mapTargets]
    split
    · exact Operand.settles_mapTargets hchange instruction.operand
    · exact Operand.Settles.kept _
  all_goals
    unfold mapTargets
    split <;> rfl

namespace Listing

/-- Resolving settles targets and changes nothing else. Resolved in place, in whatever order
and as often as one likes, a listing comes to the same. -/
theorem settles_resolveTargets {listing : Listing} (hascending : listing.Ascending) :
    listing.resolveTargets.length = listing.length ∧
      (forall (index : Nat) (instruction : Instruction),
        listing.get? index = some instruction ->
        exists settled : Instruction,
          listing.resolveTargets.get? index = some settled ∧ instruction.Settles settled) ∧
      listing.resolveTargets.resolveTargets = listing.resolveTargets ∧
      forall order : List Nat,
        (forall index, index < listing.length -> index ∈ order) ->
        listing.resolveInOrder order = listing.resolveTargets := by
  refine ⟨length_resolveTargets listing, ?_, resolveTargets_resolveTargets listing,
    fun order horder => resolveInOrder_eq listing horder⟩
  intro index instruction hget
  refine ⟨instruction.mapTargets listing.resolveTarget, ?_, ?_⟩
  · rw [get?_resolveTargets, hget]
    rfl
  · exact Instruction.settles_mapTargets (settles_resolveTarget hascending) instruction

theorem ascending_of_pairwise {listing : Listing}
    (h : (listing.toList.map Instruction.offset).Pairwise (· < ·)) : listing.Ascending := by
  intro first second left right hlt hfirst hsecond
  rw [← getElem?_toList] at hfirst hsecond
  rw [List.pairwise_map] at h
  rcases List.getElem?_eq_some_iff.mp hfirst with ⟨hfirstLt, rfl⟩
  rcases List.getElem?_eq_some_iff.mp hsecond with ⟨hsecondLt, rfl⟩
  exact List.pairwise_iff_getElem.mp h first second hfirstLt hsecondLt hlt

def halfResolved : Listing :=
  ofDrafts
    [ { offset := 0, opcode := .brS, operand := .branch (.unresolved 2) },
      { offset := 2, opcode := .ret, operand := .none },
      { offset := 3
        opcode := .switch
        operand := .switch [.resolved { index := 1, offset := 2 }, .unresolved 7] } ]

theorem settles_resolveTargets_halfResolved :
    halfResolved.resolveInOrder [2, 0, 1, 0] = halfResolved.resolveTargets ∧
      (halfResolved.resolveTargets.get? 0).map Instruction.operand =
        some (.branch (.resolved { index := 1, offset := 2 })) ∧
      exists table settled : Instruction,
        halfResolved.get? 2 = some table ∧
          halfResolved.resolveTargets.get? 2 = some settled ∧ table.Settles settled := by
  have hascending : halfResolved.Ascending := ascending_of_pairwise (by decide)
  rcases settles_resolveTargets hascending with ⟨-, hsettles, -, horder⟩
  have hsome : (halfResolved.get? 2).isSome = true := by decide
  rcases Option.isSome_iff_exists.mp hsome with ⟨table, htable⟩
  rcases hsettles 2 table htable with ⟨settled, hget, hsettled⟩
  exact ⟨horder [2, 0, 1, 0] (by decide), by decide +kernel, table, settled, htable, hget,
    hsettled⟩

end Listing

end CilDisasm
