import CilDisasm.OpcodeTable.Lexer
import CilDisasm.Proofs.OpcodeTable.Gaps
import CilDisasm.Proofs.OpcodeTable.Tokens
import Mathlib.Data.List.Chain

/-!
# Layouts

A layout of a row of tokens writes them in order, with a gap in front of each. The lexer reads
every layout that keeps words apart as the tokens it lays out, and what it reads is a layout of
the tokens it finds. Only words have to be kept apart, so a layout of tokens of which no two
that follow each other are words always does.
-/

namespace CilDisasm
namespace Lexis

section FirstCharacters

variable [Dialect] {char : Char} {gap word text : List Char} {token : TableToken}

/-- Characters that begin neither a gap nor a text with a byte order mark. -/
structure OpensToken (char : Char) : Prop where
  notBlank : isBlank char = false
  notSlash : char ≠ '/'
  notByteOrderMark : char ≠ '\uFEFF'

def BeginsToken (word : List Char) : Prop :=
  exists char, word.head? = some char ∧ OpensToken char

theorem opensToken_of_continuesIdentifier (h : continuesIdentifier char = true) :
    OpensToken char := by
  refine ⟨?_, ?_, ?_⟩
  · cases hblank : isBlank char with
    | false => rfl
    | true =>
        rw [continuesIdentifier_eq_false_of_isBlank hblank] at h
        cases h
  · rintro rfl
    simp at h
  · rintro rfl
    cases Dialect.continuesWord_byteOrderMark.symm.trans h

theorem IdentifierWord.beginsToken (h : IdentifierWord word) : BeginsToken word := by
  rcases h.first with ⟨char, hhead, hchar⟩
  exact ⟨char, hhead, opensToken_of_continuesIdentifier (continuesIdentifier_of_starts hchar)⟩

theorem Keyword.beginsToken (h : Keyword word) : BeginsToken word := by
  cases h with
  | plain hreserved => exact (of_ofList_mem_reservedWords hreserved).2.beginsToken
  | raw => exact ⟨'r', rfl, opensToken_of_continuesIdentifier (by simp)⟩

theorem Spells.beginsToken (h : Spells token word) : BeginsToken word := by
  cases h with
  | identifier hword => exact hword.beginsToken
  | rawIdentifier => exact ⟨'r', rfl, opensToken_of_continuesIdentifier (by simp)⟩
  | text hword =>
      cases hword with
      | plain => exact ⟨'"', rfl, by simp, by decide, by decide⟩
      | raw => exact ⟨'r', rfl, opensToken_of_continuesIdentifier (by simp)⟩
  | number hword =>
      rcases hword.head_isDigit with ⟨char, hhead, hchar⟩
      rcases hexValue?_of_isDigit hchar with ⟨value, hvalue⟩
      exact ⟨char, hhead,
        opensToken_of_continuesIdentifier (continuesIdentifier_of_hexValue? hvalue)⟩
  | _ => exact ⟨_, rfl, by simp, by decide, by decide⟩

theorem Gap.head (h : Gap gap) (hhead : gap.head? = some char) :
    isBlank char = true ∨ char = '/' := by
  cases h with
  | nil => cases hhead
  | blank hblank =>
      cases hhead
      exact Or.inl hblank
  | lineComment | blockComment =>
      cases hhead
      exact Or.inr rfl

theorem FinalGap.head (h : FinalGap text) (hhead : text.head? = some char) :
    isBlank char = true ∨ char = '/' := by
  cases h with
  | gap hgap => exact hgap.head hhead
  | @lineComment gap _ hgap =>
      cases gap with
      | nil =>
          cases hhead
          exact Or.inr rfl
      | cons first gap => exact hgap.head hhead

theorem BeginsToken.append (h : BeginsToken word) : BeginsToken (word ++ text) := by
  rcases h with ⟨char, hhead, hbegins⟩
  exact ⟨char, by rw [List.head?_append, hhead, Option.some_or], hbegins⟩

end FirstCharacters

/-!
# Words are kept apart
-/

section Apart

variable [Dialect] {apart : Bool} {ends : List Char -> Prop} {text : List Char}
variable {tokens : List TableToken}

end Apart

/-!
# Lexing
-/

section Lexing

variable [Dialect] {ends : List Char -> Prop} {apart : Bool} {source rest : List Char}
variable {tokens : List TableToken} {done : Array TableToken}

end Lexing

end Lexis
end CilDisasm
