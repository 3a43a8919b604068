import CilDisasm.OpcodeTable.Literal

/-!
# Texts

How a text is written: in quotes, with an escape or an escaped line break behind every
backslash, or raw, without any escapes. What is written says what the text is, and the lexer
finds it.
-/

namespace CilDisasm
namespace Lexis

/-- The number that digits stand for. Underscores between them count for nothing. -/
def valueOf (base value : Nat) (digits : List Char) : Nat :=
  (digits.filterMap hexValue?).foldl (fun value digit => value * base + digit) value

/-- What may stand between the braces of an escape. -/
structure ScalarDigits (digits : List Char) : Prop where
  first : exists char value, digits.head? = some char ∧ hexValue? char = some value
  rest : forall char, char ∈ digits -> char = '_' ∨ exists value, hexValue? char = some value
  length_le : (digits.filterMap hexValue?).length ≤ 6

def letterEscapes : List (Char × Char) :=
  [('n', '\n'), ('r', '\r'), ('t', '\t'), ('0', '\x00'), ('\\', '\\'), ('\'', '\''), ('"', '"')]

/-- The ways to write a character behind a backslash. -/
inductive Escape : Char -> List Char -> Prop where
  | letter {letter char : Char} (hmem : (letter, char) ∈ letterEscapes) :
      Escape char [letter]
  | byte {high low : Char} {upper lower : Nat} (hhigh : hexValue? high = some upper)
      (hlow : hexValue? low = some lower) (hlt : upper < 8) :
      Escape (Char.ofNat (16 * upper + lower)) ['x', high, low]
  | scalar {digits : List Char} (hdigits : ScalarDigits digits)
      (hvalid : (valueOf 16 0 digits).isValidChar) :
      Escape (Char.ofNat (valueOf 16 0 digits)) ('u' :: '{' :: (digits ++ ['}']))

def breakBlanks : List Char :=
  [' ', '\t', '\n', '\r']

inductive BreakBlanks : List Char -> Prop where
  | nil : BreakBlanks []
  | blank {char : Char} {rest : List Char} (hchar : char ∈ [' ', '\t', '\n'])
      (hrest : BreakBlanks rest) : BreakBlanks (char :: rest)
  | carriageReturn {rest : List Char} (hrest : BreakBlanks rest) :
      BreakBlanks ('\r' :: '\n' :: rest)

/-- An escaped line break takes all blanks along that follow it. -/
inductive EscapedBreak : List Char -> Prop where
  | newline {blanks : List Char} (hblanks : BreakBlanks blanks) :
      EscapedBreak ('\n' :: blanks)
  | carriageReturn {blanks : List Char} (hblanks : BreakBlanks blanks) :
      EscapedBreak ('\r' :: '\n' :: blanks)

/-- The ways to write the characters of a text between quotes. -/
inductive PlainBody : List Char -> List Char -> Prop where
  | nil : PlainBody [] []
  | char {char : Char} {content body : List Char} (hchar : char ∉ ['"', '\\', '\r'])
      (hbody : PlainBody content body) : PlainBody (char :: content) (char :: body)
  | lineBreak {content body : List Char} (hbody : PlainBody content body) :
      PlainBody ('\n' :: content) ('\r' :: '\n' :: body)
  | escape {char : Char} {word content body : List Char} (hword : Escape char word)
      (hbody : PlainBody content body) :
      PlainBody (char :: content) ('\\' :: (word ++ body))
  | escapedBreak {word content body : List Char} (hword : EscapedBreak word)
      (hends : forall char, body.head? = some char -> char ∉ breakBlanks)
      (hbody : PlainBody content body) : PlainBody content ('\\' :: (word ++ body))

/-- What may stand in a raw text with so many marks: a quote only if fewer marks follow it, and
a carriage return only in front of a line feed. -/
inductive RawBody [Dialect] (marks : Nat) : List Char -> List Char -> Prop where
  | nil : RawBody marks [] []
  | char {char : Char} {content body : List Char} (hchar : char ∉ ['"', '\r'])
      (hbody : RawBody marks content body) : RawBody marks (char :: content) (char :: body)
  | lineBreak {content body : List Char} (hbody : RawBody marks content body) :
      RawBody marks (rawLineBreak ++ content) ('\r' :: '\n' :: body)
  | quote {content body : List Char}
      (hmarks : ¬ List.replicate marks '#' <+: body ++ '"' :: List.replicate marks '#')
      (hbody : RawBody marks content body) : RawBody marks ('"' :: content) ('"' :: body)

/-- An identifier behind a literal says nothing, and need not be there. -/
inductive Suffix [Dialect] : List Char -> Prop where
  | nil : Suffix []
  | identifier {char : Char} {rest : List Char} (hchar : startsIdentifier char = true)
      (hrest : forall char, char ∈ rest -> continuesIdentifier char = true)
      (hallowed : isRefusedSuffix (char :: rest) = false) : Suffix (char :: rest)

def EndsWord [Dialect] (rest : List Char) : Prop :=
  forall char, rest.head? = some char ->
    continuesIdentifier char = false ∧ char ≠ '"' ∧ char ≠ '#'

inductive TextWord [Dialect] : List Char -> List Char -> Prop where
  | plain {content body suffix : List Char} (hbody : PlainBody content body)
      (hsuffix : Suffix suffix) : TextWord content ('"' :: (body ++ '"' :: suffix))
  | raw {content body suffix : List Char} {marks : Nat} (hmarks : marks ≤ 255)
      (hbody : RawBody marks content body) (hsuffix : Suffix suffix) :
      TextWord content
        ('r' :: (List.replicate marks '#' ++
          '"' :: (body ++ '"' :: (List.replicate marks '#' ++ suffix))))

/-!
# Escapes
-/

section PlainText

variable {char : Char} {content body rest : List Char} {done : Array Char}

end PlainText

/-!
# Raw texts
-/

section RawText

variable [Dialect] {char : Char} {content body rest : List Char} {marks : Nat} {done : Array Char}

end RawText

/-!
# Suffixes
-/

section Suffixes

variable [Dialect] {word suffix rest : List Char}

end Suffixes

end Lexis
end CilDisasm
