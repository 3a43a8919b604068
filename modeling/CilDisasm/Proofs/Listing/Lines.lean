import CilDisasm.Proofs.Listing.Reading
import Mathlib.Algebra.Order.BigOperators.Group.List
import Mathlib.Algebra.Order.Ring.Nat

/-!
# Lines of a listing

Every instruction of a listing is followed by a line end. These are the only ones, so that
there is one line for each instruction, exactly when no operand brings in another. Numbers,
targets and signatures never do. Strings, the names of members and parameters and the names of
types are printed as they are, and do if they contain one.
-/

namespace CilDisasm

/-- The texts in an operand that come from outside and are printed as they are. -/
def Operand.words : Operand -> List String
  | .string text => [text]
  | .member referred => [referred.name]
  | .localVariable slot => [slot.typeName]
  | .argument (.parameter parameter) => [parameter.typeName, parameter.name]
  | _ => []

def Instruction.head (instruction : Instruction) : String :=
  instruction.label.text ++ ": " ++ instruction.opcode.name

/-- The text of a listing consists of lines, one for each instruction, that begin with labels
and names of opcodes. -/
structure Listing.SplitsInto (listing : Listing) (lines : List String) : Prop where
  text_eq : listing.text.toList = lines.flatMap fun line => line.toList ++ ['\n']
  newline_notMem : forall line, line ∈ lines -> '\n' ∉ line.toList
  begins : List.Forall₂ (fun instruction line =>
    instruction.head.toList <+: line.toList) listing.toList lines

def Listing.LineByLine (listing : Listing) : Prop :=
  exists lines : List String, listing.SplitsInto lines

/-!
# Line ends
-/

theorem count_newline_flatMap (lines : List (List Char)) :
    (lines.flatMap fun line => line ++ ['\n']).count '\n' =
      (lines.map (List.count '\n')).sum + lines.length := by
  induction lines with
  | nil => rfl
  | cons line rest ih =>
      rw [List.flatMap_cons, List.count_append, List.count_append, ih, List.map_cons,
        List.sum_cons, List.length_cons, List.count_singleton_self]
      omega

theorem newline_notMem_of_flatMap_eq {texts lines : List (List Char)}
    (hlength : texts.length = lines.length)
    (hlines : forall line, line ∈ lines -> '\n' ∉ line)
    (h : (texts.flatMap fun text => text ++ ['\n']) =
      lines.flatMap fun line => line ++ ['\n']) :
    forall text, text ∈ texts -> '\n' ∉ text := by
  have hnone : (lines.map (List.count '\n')).sum = 0 := by
    apply List.sum_eq_zero
    intro count hcount
    rcases List.mem_map.mp hcount with ⟨line, hline, rfl⟩
    exact List.count_eq_zero.mpr (hlines line hline)
  have hcount := congrArg (List.count '\n') h
  rw [count_newline_flatMap, count_newline_flatMap, hnone, hlength] at hcount
  have hsum : (texts.map (List.count '\n')).sum = 0 := Nat.add_right_cancel hcount
  intro text htext
  exact List.count_eq_zero.mp
    (List.sum_eq_zero_iff.mp hsum _ (List.mem_map_of_mem htext))

/-!
# Texts without line ends
-/

theorem newline_mem_append_iff {first second : String} :
    '\n' ∈ (first ++ second).toList <-> '\n' ∈ first.toList ∨ '\n' ∈ second.toList := by
  rw [String.toList_append, List.mem_append]

theorem Numeral.newline_notMem_hexDigits (width number : Nat) :
    '\n' ∉ hexDigits width number := by
  intro hmem
  exact absurd (isAlphanum_of_mem_hexDigits hmem) (by decide)

theorem Numeral.newline_notMem_repr (number : Nat) : '\n' ∉ number.repr.toList := by
  intro hmem
  exact absurd (isAlphanum_of_mem_repr hmem) (by decide)

theorem Numeral.newline_notMem_repr_int (number : Int) : '\n' ∉ number.repr.toList := by
  intro hmem
  exact absurd (isAlphanum_or_eq_sign_of_mem_repr hmem) (by decide)

theorem Target.newline_notMem_text (target : Target) : '\n' ∉ target.text.toList := by
  intro hmem
  exact absurd (List.all_eq_true.mp target.all_isTargetCharacter_text _ hmem) (by decide)

theorem newline_notMem_intercalate {separator : String} {mark : Char}
    (hseparator : separator.toList = [mark]) (hmark : mark ≠ '\n') {texts : List String}
    (h : forall text, text ∈ texts -> '\n' ∉ text.toList) :
    '\n' ∉ (separator.intercalate texts).toList := by
  intro hmem
  rw [String.toList_intercalate, hseparator] at hmem
  rcases eq_or_mem_of_mem_intercalate hmem with heq | ⟨part, hpart, hnewline⟩
  · exact hmark heq.symm
  · rcases List.mem_map.mp hpart with ⟨text, htext, rfl⟩
    exact h text htext hnewline

theorem Signature.newline_notMem_text (signature : Signature) :
    '\n' ∉ signature.text.toList := by
  have hbytes : '\n' ∉ (" ".intercalate
      (signature.bytes.map fun byte => Numeral.hex 2 byte.toNat)).toList := by
    refine newline_notMem_intercalate rfl (by decide) ?_
    intro text htext
    rcases List.mem_map.mp htext with ⟨byte, -, rfl⟩
    rw [Numeral.toList_hex]
    exact Numeral.newline_notMem_hexDigits _ _
  rw [Signature.text, newline_mem_append_iff, newline_mem_append_iff]
  simp [hbytes, -String.toList_intercalate]

theorem Decimal.newline_notMem_positional (decimal : Decimal) :
    '\n' ∉ decimal.positional := by
  have hdigits : '\n' ∉ Nat.toDigits 10 decimal.coefficient := by
    rw [← Nat.toList_repr]
    exact Numeral.newline_notMem_repr _
  have hzeros : forall count : Nat, '\n' ∉ List.replicate count '0' := by
    intro count hmem
    exact absurd (List.eq_of_mem_replicate hmem) (by decide)
  unfold positional
  simp only
  split
  · exact List.not_mem_append hdigits (hzeros _)
  · split
    · refine List.not_mem_append (fun hmem => hdigits (List.mem_of_mem_take hmem)) ?_
      refine List.not_mem_cons_of_ne_of_not_mem (by decide) ?_
      exact fun hmem => hdigits (List.mem_of_mem_drop hmem)
    · refine List.not_mem_cons_of_ne_of_not_mem (by decide) ?_
      refine List.not_mem_cons_of_ne_of_not_mem (by decide) ?_
      exact List.not_mem_append (hzeros _) hdigits

theorem Datum.newline_notMem_text (datum : Datum) : '\n' ∉ datum.text.toList := by
  have hsign : forall negative : Bool, '\n' ∉ (signText negative).toList := by
    decide
  cases datum with
  | nan => decide
  | infinite negative =>
      rw [text, String.toList_append]
      exact List.not_mem_append (hsign negative) (by decide)
  | finite negative significand exponent narrowBelow =>
      unfold text
      simp only
      split
      · rw [String.toList_append]
        exact List.not_mem_append (hsign negative) (by decide)
      · rw [String.toList_append, String.toList_ofList]
        exact List.not_mem_append (hsign negative) (Decimal.newline_notMem_positional _)

/-!
# Operands and instructions
-/

theorem LocalVariable.newline_mem_text_iff (slot : LocalVariable) :
    '\n' ∈ slot.text.toList <-> '\n' ∈ slot.typeName.toList := by
  have hindex : '\n' ∉ (toString slot.index).toList := Numeral.newline_notMem_repr _
  have hpinned : '\n' ∉ (if slot.pinned then " (pinned)" else "").toList := by
    split <;> simp
  have htext : slot.text = slot.typeName ++ " (" ++ toString slot.index ++ ")" ++
      if slot.pinned then " (pinned)" else "" := rfl
  simp [htext, hindex, hpinned]

theorem Parameter.newline_mem_text_iff (parameter : Parameter) :
    '\n' ∈ parameter.text.toList <->
      '\n' ∈ parameter.typeName.toList ∨ '\n' ∈ parameter.name.toList := by
  have htext : parameter.text = parameter.typeName ++ " " ++ parameter.name := rfl
  simp [htext]

namespace Operand

theorem newline_notMem_text_of_words_eq_nil {operand : Operand} (h : operand.words = []) :
    '\n' ∉ operand.text.toList := by
  cases operand with
  | none => exact List.not_mem_nil
  | int8 value => exact Numeral.newline_notMem_repr_int _
  | uint8 value => exact Numeral.newline_notMem_repr _
  | int32 value => exact Numeral.newline_notMem_repr_int _
  | int64 value => exact Numeral.newline_notMem_repr_int _
  | float32 value => exact Datum.newline_notMem_text _
  | float64 value => exact Datum.newline_notMem_text _
  | branch target => exact target.newline_notMem_text
  | switch targets =>
      refine newline_notMem_intercalate rfl (by decide) ?_
      intro text htext
      rcases List.mem_map.mp htext with ⟨target, -, rfl⟩
      exact target.newline_notMem_text
  | signature blob => exact blob.newline_notMem_text
  | argument described =>
      cases described with
      | receiver => decide
      | parameter parameter => cases h
  | string text | member referred | localVariable slot => cases h

theorem newline_mem_text_iff (operand : Operand) :
    '\n' ∈ operand.text.toList <->
      exists word, word ∈ operand.words ∧ '\n' ∈ word.toList := by
  have hnil : forall {other : Operand}, other.words = [] ->
      ('\n' ∈ other.text.toList <->
        exists word, word ∈ other.words ∧ '\n' ∈ word.toList) := by
    intro other hother
    simp [newline_notMem_text_of_words_eq_nil hother, hother]
  cases operand with
  | string text =>
      simp [Operand.text, words]
  | member referred =>
      simp only [Operand.text, Member.text, words, List.mem_singleton, exists_eq_left]
  | localVariable slot =>
      simp only [Operand.text, slot.newline_mem_text_iff, words, List.mem_singleton,
        exists_eq_left]
  | argument described =>
      cases described with
      | receiver => exact hnil rfl
      | parameter parameter =>
          simp only [Operand.text, Argument.text, parameter.newline_mem_text_iff, words,
            List.mem_cons, List.not_mem_nil, or_false, exists_eq_or_imp, exists_eq_left]
  | _ => exact hnil rfl

theorem newline_mem_tail_iff (operand : Operand) :
    '\n' ∈ operand.tail <-> '\n' ∈ operand.text.toList := by
  cases operand with
  | none => exact Iff.rfl
  | _ => simp [tail]

end Operand

namespace Instruction

theorem head_isPrefix_text (instruction : Instruction) :
    instruction.head.toList <+: instruction.text.toList := by
  unfold text
  split
  · exact List.prefix_rfl
  · rw [String.toList_append, String.toList_append, List.append_assoc]
    exact List.prefix_append _ _

theorem newline_mem_text_iff {instruction : Instruction}
    (hname : '\n' ∉ instruction.opcode.name.toList) :
    '\n' ∈ instruction.text.toList <->
      '\n' ∈ instruction.operand.text.toList := by
  have hdigits := Numeral.newline_notMem_hexDigits 4 instruction.offset
  rw [toList_text, ← Operand.newline_mem_tail_iff]
  simp [hdigits, hname]

end Instruction

namespace Listing

/-- There is one line for each instruction exactly when nothing from outside has a line end. -/
theorem lineByLine_iff {listing : Listing}
    (hname : forall instruction, instruction ∈ listing.toList ->
      '\n' ∉ instruction.opcode.name.toList) :
    listing.LineByLine <->
      forall instruction, instruction ∈ listing.toList ->
        forall word, word ∈ instruction.operand.words -> '\n' ∉ word.toList := by
  have hiff : forall instruction, instruction ∈ listing.toList ->
      ('\n' ∉ instruction.text.toList <->
        forall word, word ∈ instruction.operand.words -> '\n' ∉ word.toList) := by
    intro instruction hmem
    rw [Instruction.newline_mem_text_iff (hname instruction hmem),
      Operand.newline_mem_text_iff]
    exact not_exists.trans (forall_congr' fun word => not_and)
  constructor
  · intro h
    rcases h with ⟨lines, htext, hlines, hbegins⟩
    intro instruction hmem
    apply (hiff instruction hmem).mp
    have hchars : (lines.map String.toList).flatMap (fun line => line ++ ['\n']) =
        lines.flatMap fun line => line.toList ++ ['\n'] := List.flatMap_map ..
    rw [toList_text, ← hchars] at htext
    refine newline_notMem_of_flatMap_eq ?_ ?_ htext _ (List.mem_map_of_mem hmem)
    · rw [List.length_map, List.length_map]
      exact hbegins.length_eq
    · intro line hline
      rcases List.mem_map.mp hline with ⟨text, htext, rfl⟩
      exact hlines text htext
  · intro h
    refine ⟨listing.toList.map Instruction.text, ?_, ?_, ?_⟩
    · rw [toList_text, List.flatMap_map, List.flatMap_map]
    · intro line hline
      rcases List.mem_map.mp hline with ⟨instruction, hmem, rfl⟩
      exact (hiff instruction hmem).mpr (h instruction hmem)
    · rw [List.forall₂_map_right_iff, List.forall₂_same]
      exact fun instruction _ => instruction.head_isPrefix_text

end Listing

end CilDisasm
