import CilDisasm.OpcodeTable.Dialect

/-!
# Lexis of opcode tables

An opcode table is written with identifiers, texts in quotes, whole numbers and five
marks. Between them there may be blanks and comments; comments in brackets nest. Comments
that document something are not part of the language.
-/

namespace CilDisasm

inductive TableToken where
  | identifier (name : String)
  | text (content : String)
  | number (value : Nat)
  | colon
  | equals
  | comma
  | semicolon
  | minus
deriving DecidableEq, Repr

namespace Lexis

variable [Dialect]

/-!
# Classes of characters
-/

def isBlank (char : Char) : Bool :=
  patternBlanks.contains char.toNat || (!Dialect.strict && otherBlanks.contains char.toNat)

def startsIdentifier (char : Char) : Bool :=
  Dialect.startsWord char || char = '_'

def continuesIdentifier (char : Char) : Bool :=
  Dialect.continuesWord char

def hexValue? (char : Char) : Option Nat :=
  if char.isDigit then some (char.toNat - '0'.toNat)
  else if 'a' ≤ char && char ≤ 'f' then some (char.toNat - 'a'.toNat + 10)
  else if 'A' ≤ char && char ≤ 'F' then some (char.toNat - 'A'.toNat + 10)
  else none

def reservedWords : List String :=
  [ "_", "abstract", "as", "async", "await", "become", "box", "break", "const",
    "continue", "crate", "do", "dyn", "else", "enum", "extern", "false", "final", "fn",
    "for", "if", "impl", "in", "let", "loop", "macro", "match", "mod", "move", "mut",
    "override", "priv", "pub", "ref", "return", "Self", "self", "static", "struct",
    "super", "trait", "true", "try", "type", "typeof", "unsafe", "unsized", "use",
    "virtual", "where", "while", "yield" ]

/-- Words that stay reserved even behind the mark `r#`. -/
def alwaysReserved : List String :=
  ["_", "super", "self", "Self", "crate"]

/-!
# Gaps

A gap is what stands between two tokens. Inside of a comment in brackets the state counts
how many comments are open around the innermost one.
-/

inductive GapState where
  | blank
  | lineComment
  | blockComment (around : Nat)
deriving DecidableEq, Repr

/-- A third character that makes a comment document something: `///x` and `//!` do, and
`////` does not. -/
def documentsLine : List Char -> Bool
  | '/' :: '/' :: _ => false
  | '/' :: _ => true
  | '!' :: _ => true
  | _ => false

/-- The same for brackets: an empty comment and three stars document nothing. -/
def documentsBlock : List Char -> Bool
  | '*' :: '*' :: _ => false
  | '*' :: '/' :: _ => false
  | '*' :: _ => true
  | '!' :: _ => true
  | _ => false

/-- What follows a gap. A comment that is not closed, or that documents something, is no
gap. -/
def skipGap : GapState -> List Char -> Option (List Char)
  | .blank, [] => some []
  | .blank, '/' :: '/' :: rest =>
      if documentsLine rest then none else skipGap .lineComment rest
  | .blank, '/' :: '*' :: rest =>
      if documentsBlock rest then none else skipGap (.blockComment 0) rest
  | .blank, char :: rest =>
      if isBlank char then skipGap .blank rest else some (char :: rest)
  | .lineComment, [] => some []
  | .lineComment, char :: rest =>
      if char = '\n' then skipGap .blank rest else skipGap .lineComment rest
  | .blockComment _, [] => none
  | .blockComment around, '/' :: '*' :: rest => skipGap (.blockComment (around + 1)) rest
  | .blockComment around, '*' :: '/' :: rest =>
      match around with
      | 0 => skipGap .blank rest
      | outer + 1 => skipGap (.blockComment outer) rest
  | .blockComment around, _ :: rest => skipGap (.blockComment around) rest

@[simp]
theorem isBlank_of_ascii {char : Char} (h : char.toNat < 0x80) :
    isBlank char = [0x09, 0x0A, 0x0B, 0x0C, 0x0D, 0x20].contains char.toNat := by
  have hbeyond : forall code, code ∈ otherBlanks -> 0x80 ≤ code := by decide
  have hother : otherBlanks.contains char.toNat = false := by
    rw [← Bool.not_eq_true, List.contains_iff_mem]
    exact fun hmem => Nat.not_lt.mpr (hbeyond _ hmem) h
  rw [isBlank, hother, Bool.and_false, Bool.or_false, Bool.eq_iff_iff, List.contains_iff_mem,
    List.contains_iff_mem]
  simp only [patternBlanks, List.mem_cons, List.not_mem_nil, or_false]
  omega

@[simp]
theorem startsIdentifier_of_ascii {char : Char} (h : char.toNat < 0x80) :
    startsIdentifier char = (char.isAlpha || char = '_') := by
  rw [startsIdentifier, Dialect.startsWord_of_ascii h]

@[simp]
theorem continuesIdentifier_of_ascii {char : Char} (h : char.toNat < 0x80) :
    continuesIdentifier char = (char.isAlphanum || char = '_') :=
  Dialect.continuesWord_of_ascii h

theorem continuesIdentifier_of_starts {char : Char} (h : startsIdentifier char = true) :
    continuesIdentifier char = true := by
  simp only [startsIdentifier, Bool.or_eq_true, decide_eq_true_eq] at h
  rcases h with hword | rfl
  · exact Dialect.continuesWord_of_startsWord hword
  · simp

theorem length_skipGap {state : GapState} {source rest : List Char}
    (h : skipGap state source = some rest) : rest.length ≤ source.length := by
  fun_induction skipGap state source
  case case1 | case2 | case4 | case8 | case11 => simp_all
  case case7 =>
    cases h
    exact Nat.le_refl _
  case case3 ih | case5 ih | case6 ih | case9 ih | case10 ih | case12 ih | case13 ih |
      case14 ih | case15 ih =>
    have hle := ih h
    simp only [List.length_cons]
    omega

end Lexis

end CilDisasm
