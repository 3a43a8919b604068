import Mathlib.Data.List.Induction
import CilDisasm.Listing.Basic

/-!
# Building a listing

A listing grows by one instruction at a time, so it is given by what was appended. Although
every step changes an earlier instruction, the outcome has a closed form: an instruction
knows its position, and its links name the positions next to it.
-/

namespace CilDisasm

structure Draft where
  offset : Nat
  opcode : Opcode
  operand : Operand
deriving DecidableEq, Repr

def Draft.instruction (draft : Draft) (length index : Nat) : Instruction :=
  { index := index
    offset := draft.offset
    opcode := draft.opcode
    operand := draft.operand
    previous := if index = 0 then none else some (index - 1)
    next := if index + 1 < length then some (index + 1) else none }

def Instruction.draft (instruction : Instruction) : Draft :=
  { offset := instruction.offset
    opcode := instruction.opcode
    operand := instruction.operand }

namespace Listing

def pushDraft (listing : Listing) (draft : Draft) : Listing :=
  listing.push draft.offset draft.opcode draft.operand

def ofDrafts (drafts : List Draft) : Listing :=
  drafts.foldl pushDraft empty

theorem ofDrafts_concat (drafts : List Draft) (draft : Draft) :
    ofDrafts (drafts ++ [draft]) = (ofDrafts drafts).pushDraft draft := by
  rw [ofDrafts, List.foldl_append]
  rfl

@[simp] theorem length_ofDrafts (drafts : List Draft) :
    (ofDrafts drafts).length = drafts.length := by
  induction drafts using List.reverseRecOn with
  | nil => rfl
  | append_singleton rest draft ih =>
      rw [ofDrafts_concat, pushDraft, length_push, ih, List.length_append]
      rfl

theorem get?_ofDrafts (drafts : List Draft) (index : Nat) :
    (ofDrafts drafts).get? index =
      drafts[index]?.map (fun draft => draft.instruction drafts.length index) := by
  induction drafts using List.reverseRecOn with
  | nil => rfl
  | append_singleton rest draft ih =>
      rw [ofDrafts_concat, pushDraft, get?_push, length_ofDrafts, ih,
        List.length_append, List.length_singleton]
      by_cases hlast : index = rest.length
      · subst hlast
        simp [appended, Draft.instruction]
      · rw [if_neg hlast]
        by_cases hbefore : index + 1 = rest.length
        · have hlt : index < rest.length := by
            rw [← hbefore]
            exact Nat.lt_succ_self index
          simp [hbefore, hlt, List.getElem?_append_left hlt, Draft.instruction]
        · rw [if_neg hbefore]
          by_cases hlt : index < rest.length
          · have hnext : index + 1 < rest.length <-> index + 1 < rest.length + 1 := by
              omega
            simp only [List.getElem?_append_left hlt, Draft.instruction, hnext]
          · have hnone : (rest ++ [draft])[index]? = none := by
              apply List.getElem?_eq_none
              rw [List.length_append, List.length_singleton]
              omega
            rw [hnone, List.getElem?_eq_none (Nat.le_of_not_lt hlt)]
            rfl

theorem get?_eq_none_iff {listing : Listing} {index : Nat} :
    listing.get? index = none <-> listing.length ≤ index :=
  Array.getElem?_eq_none_iff

theorem lt_length_of_get? {listing : Listing} {index : Nat} {instruction : Instruction}
    (h : listing.get? index = some instruction) : index < listing.length := by
  apply Nat.lt_of_not_le
  intro hle
  rw [get?_eq_none_iff.mpr hle] at h
  cases h

theorem getElem?_toList (listing : Listing) (index : Nat) :
    listing.toList[index]? = listing.get? index :=
  Array.getElem?_toList

theorem mem_toList_of_get? {listing : Listing} {index : Nat} {instruction : Instruction}
    (h : listing.get? index = some instruction) : instruction ∈ listing.toList := by
  rw [← getElem?_toList] at h
  exact List.mem_of_getElem? h

theorem exists_get?_of_mem_toList {listing : Listing} {instruction : Instruction}
    (h : instruction ∈ listing.toList) :
    exists index : Nat, listing.get? index = some instruction := by
  rcases List.getElem?_of_mem h with ⟨index, hget⟩
  rw [getElem?_toList] at hget
  exact ⟨index, hget⟩

theorem toList_map_draft_push (listing : Listing) (offset : Nat) (opcode : Opcode)
    (operand : Operand) :
    (listing.push offset opcode operand).toList.map Instruction.draft =
      listing.toList.map Instruction.draft ++
        [{ offset := offset, opcode := opcode, operand := operand }] := by
  have hlength : (listing.toList.map Instruction.draft).length = listing.length :=
    List.length_map _
  apply List.ext_getElem?
  intro index
  rw [List.getElem?_map, getElem?_toList, get?_push]
  by_cases hlast : index = listing.length
  · rw [if_pos hlast, List.getElem?_append_right (by omega), hlength, hlast, Nat.sub_self]
    rfl
  · rw [if_neg hlast]
    by_cases hlt : index < listing.length
    · rw [List.getElem?_append_left (by omega), List.getElem?_map, getElem?_toList]
      split
      · rw [Option.map_map]
        rfl
      · rfl
    · have hle : listing.length + 1 ≤ index := by
        omega
      rw [if_neg (by omega), get?_eq_none_iff.mpr (by omega), List.getElem?_eq_none]
      · rfl
      · rw [List.length_append, hlength]
        exact hle

theorem toList_map_draft_ofDrafts (drafts : List Draft) :
    (ofDrafts drafts).toList.map Instruction.draft = drafts := by
  induction drafts using List.reverseRecOn with
  | nil => rfl
  | append_singleton rest draft ih =>
      rw [ofDrafts_concat, pushDraft, toList_map_draft_push, ih]

/-!
# Positions after resolving

Resolving targets changes operands of branches only.
-/

@[simp] theorem length_resolveTargets (listing : Listing) :
    listing.resolveTargets.length = listing.length := by
  simp [length, resolveTargets]

theorem get?_resolveTargets (listing : Listing) (index : Nat) :
    listing.resolveTargets.get? index =
      (listing.get? index).map (fun instruction =>
        instruction.mapTargets listing.resolveTarget) := by
  simp [get?, resolveTargets]

theorem exists_of_all {ε : Type} {outcome : Except ε Listing} {test : Instruction -> Bool}
    (h : (outcome.toOption.any fun listing => listing.toList.all test) = true) :
    exists listing : Listing,
      outcome = .ok listing ∧
        forall instruction, instruction ∈ listing.toList -> test instruction = true := by
  cases outcome with
  | error error => cases h
  | ok listing => exact ⟨listing, rfl, List.all_eq_true.mp h⟩

end Listing

namespace Instruction

variable (change : Target -> Target) (instruction : Instruction)

@[simp] theorem index_mapTargets :
    (instruction.mapTargets change).index = instruction.index := by
  unfold mapTargets
  split <;> rfl

@[simp] theorem offset_mapTargets :
    (instruction.mapTargets change).offset = instruction.offset := by
  unfold mapTargets
  split <;> rfl

@[simp] theorem opcode_mapTargets :
    (instruction.mapTargets change).opcode = instruction.opcode := by
  unfold mapTargets
  split <;> rfl

@[simp] theorem previous_mapTargets :
    (instruction.mapTargets change).previous = instruction.previous := by
  unfold mapTargets
  split <;> rfl

@[simp] theorem next_mapTargets :
    (instruction.mapTargets change).next = instruction.next := by
  unfold mapTargets
  split <;> rfl

theorem operand_mapTargets :
    (instruction.mapTargets change).operand =
      if instruction.opcode.format.isBranch then instruction.operand.mapTargets change
      else instruction.operand := by
  unfold mapTargets
  split <;> rfl

@[simp] theorem size_mapTargets :
    (instruction.mapTargets change).size = instruction.size := by
  unfold size operandSize
  rw [opcode_mapTargets, operand_mapTargets]
  by_cases hbranch : instruction.opcode.format.isBranch = true
  · rw [if_pos hbranch]
    cases instruction.operand with
    | branch target => cases instruction.opcode.format <;> rfl
    | switch targets =>
        cases instruction.opcode.format <;> simp only [Operand.mapTargets, List.length_map]
    | _ => rfl
  · rw [if_neg hbranch]

end Instruction

end CilDisasm
