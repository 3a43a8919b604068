import CilDisasm.Bytes.LittleEndian
import CilDisasm.Listing.Basic
import CilDisasm.Proofs.Float.Comparison
import CilDisasm.Proofs.Listing.Construction
import Mathlib.Data.List.Forall2
import Mathlib.Tactic.Tauto

/-!
# Comparison

Operands compare as values. Two of them agree if they are the same and no NaN, or if both are
zeros of one precision. Everything else in an instruction is compared by identity, so equal
listings are the same up to the signs of zeros.
-/

namespace CilDisasm

namespace Operand

def isNaN : Operand -> Bool
  | float32 value => value.isNaN
  | float64 value => value.isNaN
  | _ => false

def float? : Operand -> Option (FloatFormat × Nat)
  | float32 value => some (.binary32, value.bits.toNat)
  | float64 value => some (.binary64, value.bits.toNat)
  | _ => .none

/-- Both operands are zeros of the same precision. -/
inductive Zeros (left right : Operand) : Prop where
  | intro {format : FloatFormat} {bits others : Nat} (hleft : left.float? = some (format, bits))
      (hright : right.float? = some (format, others)) (hzero : format.isZero bits = true)
      (hzero' : format.isZero others = true) : Zeros left right

/-- Equality of operands, with floats taken for the numbers that they stand for. -/
inductive Equals (left right : Operand) : Prop where
  | float {format : FloatFormat} {bits others : Nat} (hleft : left.float? = some (format, bits))
      (hright : right.float? = some (format, others))
      (h : (format.datum bits).Equals (format.datum others)) : Equals left right
  | same (hleft : left.float? = .none) (h : left = right) : Equals left right

section Floats

variable {operand left right : Operand} {format : FloatFormat} {bits others : Nat}

theorem float?_cases (h : operand.float? = some (format, bits)) :
    (exists value, operand = float32 value ∧ format = .binary32 ∧ bits = value.bits.toNat) ∨
      exists value, operand = float64 value ∧ format = .binary64 ∧ bits = value.bits.toNat := by
  cases operand with
  | float32 value =>
      cases h
      exact Or.inl ⟨value, rfl, rfl, rfl⟩
  | float64 value =>
      cases h
      exact Or.inr ⟨value, rfl, rfl, rfl⟩
  | _ => cases h

theorem fits_of_float? (h : operand.float? = some (format, bits)) :
    0 < format.exponentBits ∧ format.Fits bits := by
  rcases float?_cases h with ⟨value, -, rfl, rfl⟩ | ⟨value, -, rfl, rfl⟩
  · exact ⟨Nat.succ_pos _, value.bits.toNat_lt⟩
  · exact ⟨Nat.succ_pos _, value.bits.toNat_lt⟩

theorem isNaN_of_float? (h : operand.float? = some (format, bits)) :
    operand.isNaN = format.isNaN bits := by
  rcases float?_cases h with ⟨value, rfl, rfl, rfl⟩ | ⟨value, rfl, rfl, rfl⟩ <;> rfl

theorem isNaN_of_float?_eq_none (h : operand.float? = .none) : operand.isNaN = false := by
  cases operand with
  | float32 value | float64 value => cases h
  | _ => rfl

theorem agrees_of_float? (hleft : left.float? = some (format, bits))
    (hright : right.float? = some (format, others)) :
    left.agrees right = format.agrees bits others ∧ (left = right <-> bits = others) := by
  rcases float?_cases hleft with ⟨value, rfl, rfl, rfl⟩ | ⟨value, rfl, rfl, rfl⟩
  · rcases float?_cases hright with ⟨other, rfl, -, rfl⟩ | ⟨_, -, hformat, -⟩
    · rw [float32.injEq, UInt32.toNat_inj]
      exact ⟨rfl, Binary32.mk.injEq _ _ ▸ Iff.rfl⟩
    · cases hformat
  · rcases float?_cases hright with ⟨_, -, hformat, -⟩ | ⟨other, rfl, -, rfl⟩
    · cases hformat
    · rw [float64.injEq, UInt64.toNat_inj]
      exact ⟨rfl, Binary64.mk.injEq _ _ ▸ Iff.rfl⟩

theorem zeros_iff_of_float? (hleft : left.float? = some (format, bits))
    (hright : right.float? = some (format, others)) :
    left.Zeros right <-> format.isZero bits = true ∧ format.isZero others = true := by
  constructor
  · rintro ⟨hfirst, hsecond, hzero, hzero'⟩
    cases hfirst.symm.trans hleft
    cases hsecond.symm.trans hright
    exact ⟨hzero, hzero'⟩
  · rintro ⟨hzero, hzero'⟩
    exact .intro hleft hright hzero hzero'

theorem equals_iff_of_float? (hleft : left.float? = some (format, bits))
    (hright : right.float? = some (format, others)) :
    left.Equals right <-> (format.datum bits).Equals (format.datum others) := by
  constructor
  · rintro (⟨hfirst, hsecond, hequals⟩ | ⟨hnone, -⟩)
    · cases hfirst.symm.trans hleft
      cases hsecond.symm.trans hright
      exact hequals
    · cases hnone.symm.trans hleft
  · exact .float hleft hright

def SharePrecision (left right : Operand) : Prop :=
  exists format bits others,
    left.float? = some (format, bits) ∧ right.float? = some (format, others)

theorem agrees_of_not_sharePrecision (h : ¬ left.SharePrecision right) :
    left.agrees right = decide (left = right) := by
  unfold agrees
  split
  · exact absurd ⟨_, _, _, rfl, rfl⟩ h
  · exact absurd ⟨_, _, _, rfl, rfl⟩ h
  · rfl

theorem float?_eq_none_of_not_sharePrecision (h : ¬ operand.SharePrecision operand) :
    operand.float? = .none := by
  rw [Option.eq_none_iff_forall_ne_some]
  rintro ⟨format, bits⟩ hfloat
  exact h ⟨format, bits, bits, hfloat, hfloat⟩

theorem agrees_iff :
    left.agrees right = true <-> (left = right ∧ left.isNaN = false) ∨ left.Zeros right := by
  by_cases h : left.SharePrecision right
  · rcases h with ⟨format, bits, others, hleft, hright⟩
    rcases agrees_of_float? hleft hright with ⟨hagrees, hsame⟩
    rw [hagrees, FloatFormat.agrees_iff, hsame, isNaN_of_float? hleft,
      zeros_iff_of_float? hleft hright]
  · rw [agrees_of_not_sharePrecision h, decide_eq_true_eq]
    constructor
    · rintro rfl
      exact Or.inl ⟨rfl, isNaN_of_float?_eq_none (float?_eq_none_of_not_sharePrecision h)⟩
    · rintro (⟨rfl, -⟩ | ⟨hleft, hright, -, -⟩)
      · rfl
      · exact absurd ⟨_, _, _, hleft, hright⟩ h

/-- Operands agree exactly if they are equal, with floats taken as numbers. -/
theorem agrees_iff_equals : left.agrees right = true <-> left.Equals right := by
  by_cases h : left.SharePrecision right
  · rcases h with ⟨format, bits, others, hleft, hright⟩
    rcases fits_of_float? hleft with ⟨hexponent, hbits⟩
    rw [(agrees_of_float? hleft hright).1, equals_iff_of_float? hleft hright,
      FloatFormat.agrees_iff_equals hexponent hbits (fits_of_float? hright).2]
  · rw [agrees_of_not_sharePrecision h, decide_eq_true_eq]
    constructor
    · rintro rfl
      exact .same (float?_eq_none_of_not_sharePrecision h) rfl
    · rintro (⟨hleft, hright, -⟩ | ⟨-, rfl⟩)
      · exact absurd ⟨_, _, _, hleft, hright⟩ h
      · rfl

theorem isNaN_eq_false_of_agrees (h : left.agrees right = true) :
    left.isNaN = false ∧ right.isNaN = false := by
  rcases agrees_iff.mp h with ⟨rfl, hnan⟩ | ⟨hleft, hright, hzero, hzero'⟩
  · exact ⟨hnan, hnan⟩
  · rw [isNaN_of_float? hleft, isNaN_of_float? hright]
    have hexponent := (fits_of_float? hleft).1
    exact ⟨FloatFormat.isNaN_eq_false_of_isZero hexponent hzero,
      FloatFormat.isNaN_eq_false_of_isZero hexponent hzero'⟩

end Floats

/-- Operands that have to be looked up: symbols, variables and parameters. -/
def isReference : Operand -> Bool
  | string _ | member _ | signature _ | localVariable _ | argument _ => true
  | _ => false

end Operand

/-!
# Instructions and listings
-/

theorem Instruction.agrees_iff {left right : Instruction} :
    left.agrees right = true <->
      left.operand.agrees right.operand = true ∧
        { left with operand := right.operand } = right := by
  rcases left with ⟨index, offset, opcode, operand, previous, next⟩
  rcases right with ⟨index', offset', opcode', operand', previous', next'⟩
  simp only [agrees, Bool.and_eq_true, decide_eq_true_eq, Instruction.mk.injEq]
  tauto

theorem Listing.agrees_iff_forall₂ {left right : Listing} :
    left.agrees right = true <->
      List.Forall₂ (fun instruction other => instruction.agrees other = true)
        left.toList right.toList := by
  rw [List.forall₂_iff_zip, agrees, Bool.and_eq_true, decide_eq_true_iff, List.all_eq_true]
  exact and_congr_right fun _ => Prod.forall

/-- The same instructions, with floats taken for the numbers that they stand for. -/
def Listing.Equals (left right : Listing) : Prop :=
  List.Forall₂
    (fun instruction other => instruction.operand.Equals other.operand ∧
      { instruction with operand := other.operand } = other)
    left.toList right.toList

theorem Listing.agrees_iff_equals {left right : Listing} :
    left.agrees right = true <-> left.Equals right := by
  rw [agrees_iff_forall₂, Equals]
  constructor
  · intro h
    refine h.imp fun instruction other hagrees => ?_
    rw [Instruction.agrees_iff, Operand.agrees_iff_equals] at hagrees
    exact hagrees
  · intro h
    refine h.imp fun instruction other hequals => ?_
    rw [Instruction.agrees_iff, Operand.agrees_iff_equals]
    exact hequals

def Listing.NaNFree (listing : Listing) : Prop :=
  forall instruction, instruction ∈ listing.toList -> instruction.operand.isNaN = false

theorem Listing.naNFree_of_agrees {left right : Listing} (h : left.agrees right = true) :
    left.NaNFree ∧ right.NaNFree := by
  have hagrees := agrees_iff_forall₂.mp h
  have hoperands : forall instruction other : Instruction, instruction.agrees other = true ->
      instruction.operand.isNaN = false ∧ other.operand.isNaN = false := by
    intro instruction other hsame
    exact Operand.isNaN_eq_false_of_agrees (Instruction.agrees_iff.mp hsame).1
  constructor
  · have hleft := hagrees.imp fun instruction other hsame =>
      And.intro (hoperands instruction other hsame).1 hsame
    exact ((List.forall₂_and_left _ _).mp hleft).1
  · have hright := hagrees.flip.imp fun other instruction hsame =>
      And.intro (hoperands instruction other hsame).2 hsame
    exact ((List.forall₂_and_left _ _).mp hright).1

end CilDisasm
