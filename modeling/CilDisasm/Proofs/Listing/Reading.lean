import CilDisasm.Listing.Basic
import CilDisasm.Proofs.Text.Reading
import Mathlib.Data.List.Forall2
import Std.Data.String.ToNat

/-!
# Reading listings

The text of a target says where it leads, though not to which instruction. A line of a
listing says the offset, the name of the opcode and the text of the operand, and the text of
a listing says its lines.
-/

namespace CilDisasm

/-!
# Places

Places in front of the method body have a distance, all others have a label.
-/

def placeText : Int -> String
  | .ofNat offset => labelText offset
  | .negSucc distance => "-" ++ (distance + 1).repr

theorem toList_labelText (offset : Nat) :
    (labelText offset).toList = ['I', 'L', '_'] ++ Numeral.hexDigits 4 offset := by
  rw [labelText, String.toList_append, Numeral.toList_hex]
  rfl

theorem toList_placeText_negSucc (distance : Nat) :
    (placeText (.negSucc distance)).toList = '-' :: (distance + 1).repr.toList := by
  rw [placeText, String.toList_append]
  rfl

theorem labelText_injective : Function.Injective labelText := by
  intro left right h
  have hdigits := congrArg String.toList h
  rw [toList_labelText, toList_labelText] at hdigits
  exact Numeral.hexDigits_injective 4 (List.append_cancel_left hdigits)

theorem placeText_injective : Function.Injective placeText := by
  intro left right h
  cases left with
  | ofNat offset =>
      cases right with
      | ofNat other => rw [labelText_injective h]
      | negSucc distance =>
          have hhead := congrArg String.toList h
          rw [toList_placeText_negSucc, placeText, toList_labelText] at hhead
          injection hhead with hhead _
          cases hhead
  | negSucc distance =>
      cases right with
      | ofNat other =>
          have hhead := congrArg String.toList h
          rw [toList_placeText_negSucc, placeText, toList_labelText] at hhead
          injection hhead with hhead _
          cases hhead
      | negSucc other =>
          have hdigits := congrArg String.toList h
          rw [toList_placeText_negSucc, toList_placeText_negSucc] at hdigits
          injection hdigits with _ hdigits
          have hsucc := Nat.repr_injective (String.toList_injective hdigits)
          rw [Nat.succ.inj hsucc]

/-- No text of a target has any of the characters that separate it from others. -/
def isTargetCharacter (character : Char) : Bool :=
  character.isAlphanum || ['_', '-', '<', '>', ' '].contains character

theorem isTargetCharacter_of_isAlphanum {character : Char}
    (h : character.isAlphanum = true) : isTargetCharacter character = true := by
  rw [isTargetCharacter, h, Bool.true_or]

theorem all_isTargetCharacter_placeText (place : Int) :
    (placeText place).toList.all isTargetCharacter = true := by
  cases place with
  | ofNat offset =>
      have hdigits : (Numeral.hexDigits 4 offset).all isTargetCharacter = true := by
        apply List.all_eq_true.mpr
        intro digit hdigit
        exact isTargetCharacter_of_isAlphanum (Numeral.isAlphanum_of_mem_hexDigits hdigit)
      rw [placeText, toList_labelText, List.all_append, hdigits]
      rfl
  | negSucc distance =>
      have hdigits : (distance + 1).repr.toList.all isTargetCharacter = true := by
        apply List.all_eq_true.mpr
        intro digit hdigit
        exact isTargetCharacter_of_isAlphanum (Numeral.isAlphanum_of_mem_repr hdigit)
      rw [toList_placeText_negSucc, List.all_cons, hdigits]
      rfl

/-!
# Targets
-/

namespace Target

theorem text_eq (target : Target) :
    target.text =
      if target.isResolved then placeText target.offset
      else "<unresolved " ++ placeText target.offset ++ ">" := by
  rcases target with label | place
  · rfl
  · cases place with
    | ofNat offset => rfl
    | negSucc distance =>
        have hmark : "<unresolved -" = "<unresolved " ++ "-" := by
          decide
        show "<unresolved -" ++ (distance + 1).repr ++ ">" = _
        rw [hmark]
        exact congrArg (· ++ ">") String.append_assoc

theorem placeText_ne_note (place : Int) (rest : String) :
    placeText place ≠ "<unresolved " ++ rest := by
  intro h
  have hlist := congrArg String.toList h
  rw [String.toList_append] at hlist
  cases place with
  | ofNat offset =>
      rw [placeText, toList_labelText] at hlist
      injection hlist with hhead _
      cases hhead
  | negSucc distance =>
      rw [toList_placeText_negSucc] at hlist
      injection hlist with hhead _
      cases hhead

theorem offset_eq_of_text_eq {left right : Target} (h : left.text = right.text) :
    left.offset = right.offset := by
  rw [text_eq, text_eq] at h
  split at h
  · split at h
    · exact placeText_injective h
    · rw [String.append_assoc] at h
      exact absurd h (placeText_ne_note _ _)
  · split at h
    · rw [String.append_assoc] at h
      exact absurd h.symm (placeText_ne_note _ _)
    · rw [String.append_left_inj, String.append_right_inj] at h
      exact placeText_injective h

theorem all_isTargetCharacter_text (target : Target) :
    target.text.toList.all isTargetCharacter = true := by
  rw [text_eq]
  split
  · exact all_isTargetCharacter_placeText _
  · rw [String.toList_append, String.toList_append, List.all_append, List.all_append,
      all_isTargetCharacter_placeText]
    decide

theorem toList_text_ne_nil (target : Target) : target.text.toList ≠ [] := by
  rcases target with label | place
  · show (labelText label.offset).toList ≠ []
    rw [toList_labelText]
    exact List.cons_ne_nil _ _
  · rw [text_eq]
    show ("<unresolved " ++ placeText place ++ ">").toList ≠ []
    rw [String.append_assoc, String.toList_append]
    exact List.append_ne_nil_of_left_ne_nil (by decide) _

theorem forall₂_offset_eq_of_intercalate_eq {left right : List Target}
    (h : ",".intercalate (left.map text) = ",".intercalate (right.map text)) :
    List.Forall₂ (fun target other => target.offset = other.offset) left right := by
  have hparts : forall targets : List Target, forall part,
      part ∈ (targets.map text).map String.toList -> ',' ∉ part ∧ part ≠ [] := by
    intro targets part hpart
    rcases List.mem_map.mp hpart with ⟨line, hline, rfl⟩
    rcases List.mem_map.mp hline with ⟨target, -, rfl⟩
    refine ⟨?_, toList_text_ne_nil target⟩
    intro hcomma
    have hcharacter := List.all_eq_true.mp (all_isTargetCharacter_text target) _ hcomma
    exact absurd hcharacter (by decide)
  have hlist := congrArg String.toList h
  rw [String.toList_intercalate, String.toList_intercalate] at hlist
  have htexts := intercalate_inj (hparts left) (hparts right) hlist
  rw [← List.forall₂_eq_eq_eq] at htexts
  simp only [List.forall₂_map_left_iff, List.forall₂_map_right_iff] at htexts
  exact htexts.imp fun _ _ heq => offset_eq_of_text_eq (String.toList_injective heq)

end Target

/-!
# Lines
-/

def Operand.tail : Operand -> List Char
  | none => []
  | operand => ' ' :: operand.text.toList

theorem Operand.eq_blank_of_mem_head?_tail (operand : Operand) :
    forall first, first ∈ operand.tail.head? -> first = ' ' := by
  intro first hfirst
  cases operand with
  | none => cases hfirst
  | _ =>
      cases hfirst
      rfl

theorem Operand.text_eq_of_tail_eq {left right : Operand} (h : left.tail = right.tail) :
    left.text = right.text := by
  cases left with
  | none =>
      cases right with
      | none => rfl
      | _ => cases h
  | _ =>
      cases right with
      | none => cases h
      | _ => exact String.toList_injective (List.cons.inj h).2

namespace Instruction

theorem toList_text (instruction : Instruction) :
    instruction.text.toList =
      ['I', 'L', '_'] ++ (Numeral.hexDigits 4 instruction.offset ++
        ':' :: ' ' :: (instruction.opcode.name.toList ++ instruction.operand.tail)) := by
  have hhead : (instruction.label.text ++ ": " ++ instruction.opcode.name).toList =
      ['I', 'L', '_'] ++ (Numeral.hexDigits 4 instruction.offset ++
        ':' :: ' ' :: instruction.opcode.name.toList) := by
    rw [String.toList_append, String.toList_append, Label.text, toList_labelText,
      List.append_assoc, List.append_assoc]
    rfl
  unfold text
  cases hoperand : instruction.operand with
  | none =>
      rw [Operand.tail, List.append_nil]
      exact hhead
  | _ =>
      simp only [String.toList_append, hhead, Operand.tail, List.append_assoc,
        List.cons_append]
      rfl

/-- A line says where its instruction is, which opcode it has and what its operand reads. -/
theorem eq_of_text_eq {left right : Instruction}
    (hleft : ' ' ∉ left.opcode.name.toList) (hright : ' ' ∉ right.opcode.name.toList)
    (h : left.text = right.text) :
    left.offset = right.offset ∧ left.opcode.name = right.opcode.name ∧
      left.operand.text = right.operand.text := by
  have hcolon : forall offset : Nat, ':' ∉ Numeral.hexDigits 4 offset := by
    intro offset hmem
    exact absurd (Numeral.isAlphanum_of_mem_hexDigits hmem) (by decide)
  have hlist := congrArg String.toList h
  rw [toList_text, toList_text] at hlist
  -- A colon ends the digits of the label, a blank or the end of the line the name.
  rcases append_separator_inj (hcolon _) (hcolon _) (List.append_cancel_left hlist) with
    ⟨hdigits, hrest⟩
  injection hrest with _ hrest
  rcases append_inj_of_separator hleft hright (Operand.eq_blank_of_mem_head?_tail _)
    (Operand.eq_blank_of_mem_head?_tail _) hrest with ⟨hname, htail⟩
  exact ⟨Numeral.hexDigits_injective 4 hdigits, String.toList_injective hname,
    Operand.text_eq_of_tail_eq htail⟩

end Instruction

namespace Listing

theorem toList_text (listing : Listing) :
    listing.text.toList =
      (listing.toList.map fun instruction => instruction.text.toList).flatMap
        fun line => line ++ ['\n'] := by
  have hfold : forall instructions : List Instruction, forall lines : String,
      (instructions.foldl (fun lines instruction => lines ++ instruction.text ++ "\n")
        lines).toList =
        lines.toList ++ (instructions.map fun instruction => instruction.text.toList).flatMap
          fun line => line ++ ['\n'] := by
    intro instructions
    induction instructions with
    | nil =>
        intro lines
        rw [List.foldl_nil, List.map_nil, List.flatMap_nil, List.append_nil]
    | cons instruction rest ih =>
        intro lines
        rw [List.foldl_cons, ih, String.toList_append, String.toList_append, List.map_cons,
          List.flatMap_cons, List.append_assoc, List.append_assoc, List.append_assoc]
        rfl
  rw [text, ← Array.foldl_toList, hfold]
  rfl

theorem forall₂_text_eq_of_text_eq {left right : Listing}
    (hleft : forall instruction, instruction ∈ left.toList ->
      '\n' ∉ instruction.text.toList)
    (hright : forall instruction, instruction ∈ right.toList ->
      '\n' ∉ instruction.text.toList)
    (h : left.text = right.text) :
    List.Forall₂ (fun instruction other => instruction.text = other.text)
      left.toList right.toList := by
  have hlines := congrArg String.toList h
  rw [toList_text, toList_text] at hlines
  have htexts := lines_inj (List.forall_mem_map.mpr hleft) (List.forall_mem_map.mpr hright)
    hlines
  rw [← List.forall₂_eq_eq_eq] at htexts
  simp only [List.forall₂_map_left_iff, List.forall₂_map_right_iff] at htexts
  exact htexts.imp fun _ _ heq => String.toList_injective heq

end Listing

end CilDisasm
