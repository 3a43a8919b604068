import CilDisasm.OpcodeTable.Lexer
import CilDisasm.Proofs.OpcodeTable.Texts

/-!
# Tokens

How each token is written. The lexer finds a token that is written at the front of a text,
as long as a word does not go on behind it, and what it finds is written there.
-/

namespace CilDisasm
namespace Lexis

/-- The digits of a number, with underscores among them. -/
structure NumberDigits (base : Nat) (digits : List Char) : Prop where
  any : exists char, char ∈ digits ∧ char ≠ '_'
  all : forall char, char ∈ digits ->
    char = '_' ∨ exists value, hexValue? char = some value ∧ value < base

def EndsDigits (base : Nat) (rest : List Char) : Prop :=
  forall char, rest.head? = some char ->
    char ≠ '_' ∧ char.isDigit = false ∧ forall value, hexValue? char = some value -> base ≤ value

def baseMarks : List (Nat × Char) :=
  [(16, 'x'), (8, 'o'), (2, 'b')]

/-- How a number is written as a token. -/
inductive NumberWord [Dialect] : Nat -> List Char -> Prop where
  | decimal {digits suffix : List Char}
      (hfirst : exists char, digits.head? = some char ∧ char.isDigit = true)
      (hdigits : NumberDigits 10 digits) (hsuffix : Suffix suffix) (hends : EndsDigits 10 suffix)
      (hmark : digits = ['0'] -> forall base char, (base, char) ∈ baseMarks ->
        suffix.head? ≠ some char)
      (hexponent : hasExponent 10 suffix = false) :
      NumberWord (valueOf 10 0 digits) (digits ++ suffix)
  | marked {base : Nat} {mark : Char} {digits suffix : List Char}
      (hmark : (base, mark) ∈ baseMarks) (hdigits : NumberDigits base digits)
      (hsuffix : Suffix suffix) (hends : EndsDigits base suffix)
      (hexponent : hasExponent base suffix = false) :
      NumberWord (valueOf base 0 digits) ('0' :: mark :: (digits ++ suffix))

/-- Whether a row of characters is an identifier, if it is not reserved. -/
structure IdentifierWord [Dialect] (word : List Char) : Prop where
  first : exists char, word.head? = some char ∧ startsIdentifier char = true
  rest : forall char, char ∈ word -> continuesIdentifier char = true

/-- How a token is written. -/
inductive Spells [Dialect] : TableToken -> List Char -> Prop where
  | colon : Spells .colon [':']
  | equals : Spells .equals ['=']
  | comma : Spells .comma [',']
  | semicolon : Spells .semicolon [';']
  | minus : Spells .minus ['-']
  | identifier {word : List Char} (hword : IdentifierWord word)
      (hfree : nameOf word ∉ reservedWords) : Spells (.identifier (nameOf word)) word
  | rawIdentifier {word : List Char} (hword : IdentifierWord word)
      (hfree : nameOf word ∉ alwaysReserved) :
      Spells (.identifier ("r#" ++ nameOf word)) ('r' :: '#' :: word)
  | text {content word : List Char} (hword : TextWord content word) :
      Spells (.text (String.ofList content)) word
  | number {value : Nat} {word : List Char} (hword : NumberWord value word) :
      Spells (.number value) word

/-- The words that are no identifiers. -/
inductive Keyword : List Char -> Prop where
  | plain {word : List Char} (hreserved : String.ofList word ∈ reservedWords) : Keyword word
  | raw {word : List Char} (hreserved : String.ofList word ∈ alwaysReserved) :
      Keyword ('r' :: '#' :: word)

def isWord : TableToken -> Bool
  | .identifier _ | .text _ | .number _ => true
  | _ => false

/-!
# Classes of characters
-/

section Classes

variable {char : Char}

theorem isDigit_iff :
    char.isDigit = true <-> 0x30 ≤ char.toNat ∧ char.toNat ≤ 0x39 := by
  have hdigit : char.isDigit = (decide ('0'.val ≤ char.val) && decide (char.val ≤ '9'.val)) := rfl
  rw [hdigit, Bool.and_eq_true, decide_eq_true_eq, decide_eq_true_eq]
  exact Iff.rfl

theorem isAlpha_iff :
    char.isAlpha = true <->
      (0x41 ≤ char.toNat ∧ char.toNat ≤ 0x5A) ∨ (0x61 ≤ char.toNat ∧ char.toNat ≤ 0x7A) := by
  have halpha : char.isAlpha =
      (decide ('A'.val ≤ char.val ∧ char.val ≤ 'Z'.val) ||
        (decide ('a'.val ≤ char.val) && decide (char.val ≤ 'z'.val))) := rfl
  rw [halpha, Bool.or_eq_true, Bool.and_eq_true, decide_eq_true_eq, decide_eq_true_eq,
    decide_eq_true_eq]
  exact Iff.rfl

theorem hexValue?_of_isDigit (h : char.isDigit = true) :
    exists value, hexValue? char = some value :=
  ⟨_, if_pos h⟩

theorem toNat_bounds_of_hexValue? {value : Nat} (h : hexValue? char = some value) :
    (0x30 ≤ char.toNat ∧ char.toNat ≤ 0x39) ∨ (0x41 ≤ char.toNat ∧ char.toNat ≤ 0x46) ∨
      (0x61 ≤ char.toNat ∧ char.toNat ≤ 0x66) := by
  have hle : forall first second : Char, first ≤ second <-> first.toNat ≤ second.toNat :=
    fun _ _ => Iff.rfl
  simp only [hexValue?, isDigit_iff, Bool.and_eq_true, decide_eq_true_eq, hle, Char.reduceToNat] at h
  split at h
  · next hdigit => exact Or.inl hdigit
  · split at h
    · next hlower => exact Or.inr (Or.inr hlower)
    · split at h
      · next hupper => exact Or.inr (Or.inl hupper)
      · cases h

variable [Dialect]

theorem continuesIdentifier_of_hexValue? {value : Nat}
    (h : hexValue? char = some value) : continuesIdentifier char = true := by
  have hbounds := toNat_bounds_of_hexValue? h
  rw [continuesIdentifier_of_ascii (by omega), Char.isAlphanum, Bool.or_eq_true, Bool.or_eq_true,
    isAlpha_iff, isDigit_iff]
  omega

theorem continuesIdentifier_eq_false_of_isBlank (h : isBlank char = true) :
    continuesIdentifier char = false := by
  refine Dialect.continuesWord_of_blank (List.mem_append.mpr ?_)
  simp only [isBlank, Bool.or_eq_true, Bool.and_eq_true, List.contains_iff_mem] at h
  exact h.imp_right And.right

/-- Whether a word has no characters but those in ASCII that identifiers are made of. -/
def isPlainWord (word : List Char) : Bool :=
  word.all (fun char => char.toNat < 0x80 && (char.isAlphanum || char = '_')) &&
    word.head?.any (fun char => char.isAlpha || char = '_')

/-- Reserved words are in ASCII, so they are words of every dialect and in normal form. -/
theorem of_ofList_mem_reservedWords {word : List Char}
    (h : String.ofList word ∈ reservedWords) :
    nameOf word = String.ofList word ∧ IdentifierWord word := by
  have hall : reservedWords.all (fun name => isPlainWord name.toList) = true := by decide +kernel
  have hplain := List.all_eq_true.mp hall _ h
  rw [String.toList_ofList, isPlainWord, Bool.and_eq_true, List.all_eq_true,
    Option.any_eq_true] at hplain
  rcases hplain with ⟨hrest, char, hhead, hfirst⟩
  simp only [Bool.and_eq_true, decide_eq_true_eq] at hrest
  have hascii : char.toNat < 0x80 := (hrest char (List.mem_of_mem_head? hhead)).1
  refine ⟨?_, ⟨char, hhead, ?_⟩, fun other hother => ?_⟩
  · rw [nameOf, Dialect.normalForm_of_ascii fun char hchar => (hrest char hchar).1]
  · rw [startsIdentifier_of_ascii hascii, hfirst]
  · rw [continuesIdentifier_of_ascii (hrest other hother).1, (hrest other hother).2]

end Classes

/-!
# Numbers
-/

section Numbers

variable {base value : Nat} {any : Bool} {digits suffix rest : List Char}

variable [Dialect]

theorem endsDigits_of_endsWord (base : Nat) (h : EndsWord rest) : EndsDigits base rest := by
  intro char hhead
  have hends := (h char hhead).1
  have hnone : hexValue? char = none := by
    rw [Option.eq_none_iff_forall_ne_some]
    intro value hvalue
    rw [continuesIdentifier_of_hexValue? hvalue] at hends
    cases hends
  refine ⟨?_, ?_, fun value hvalue => ?_⟩
  · rintro rfl
    simp at hends
  · rw [← Bool.not_eq_true]
    intro hdigit
    rcases hexValue?_of_isDigit hdigit with ⟨value, hvalue⟩
    rw [hnone] at hvalue
    cases hvalue
  · rw [hnone] at hvalue
    cases hvalue

theorem EndsDigits.append (hsuffix : EndsDigits base suffix) (hrest : EndsWord rest) :
    EndsDigits base (suffix ++ rest) := by
  cases suffix with
  | nil => exact endsDigits_of_endsWord base hrest
  | cons char suffix => exact hsuffix

end Numbers

/-!
# The token at the front
-/

section Front

variable [Dialect] {char : Char} {word rest : List Char}

theorem NumberWord.head_isDigit {value : Nat} (h : NumberWord value word) :
    exists char, word.head? = some char ∧ char.isDigit = true := by
  cases h with
  | decimal hfirst =>
      rcases hfirst with ⟨char, hhead, hchar⟩
      exact ⟨char, by rw [List.head?_append, hhead, Option.some_or], hchar⟩
  | marked => exact ⟨'0', rfl, by decide⟩

end Front

end Lexis
end CilDisasm
