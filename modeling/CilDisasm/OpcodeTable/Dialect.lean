import CilDisasm.Text.Letters

/-!
# Dialects

Lexers of opcode tables differ in the version of Unicode they know, and in how strict they are.
What is in ASCII they all read the same way.
-/

namespace CilDisasm

/-- The white space of patterns, which is the same in every version of Unicode. -/
def patternBlanks : List Nat :=
  [ 0x09, 0x0A, 0x0B, 0x0C, 0x0D, 0x20, 0x85, 0x200E, 0x200F, 0x2028, 0x2029 ]

def otherBlanks : List Nat :=
  [ 0xA0, 0x1680, 0x2000, 0x2001, 0x2002, 0x2003, 0x2004, 0x2005, 0x2006, 0x2007, 0x2008,
    0x2009, 0x200A, 0x202F, 0x205F, 0x3000 ]

/-- A strict lexer takes no blanks but the white space of patterns, reads the letter E behind
digits as the beginning of an exponent, refuses an underscore behind a text, and has line feeds
for the line breaks of a raw text. A lenient one takes all white space, reads an exponent only
in a decimal number and only if it has digits, passes over the underscore, and leaves line
breaks as they are. -/
class Dialect where
  strict : Bool
  /-- The characters with the property `XID_Start`. -/
  startsWord : Char -> Bool
  /-- The characters with the property `XID_Continue`. -/
  continuesWord : Char -> Bool
  /-- The form that words are compared in. -/
  normalForm : List Char -> List Char
  startsWord_of_ascii : forall {char : Char},
    char.toNat < 0x80 -> startsWord char = char.isAlpha
  continuesWord_of_ascii : forall {char : Char},
    char.toNat < 0x80 -> continuesWord char = (char.isAlphanum || char = '_')
  continuesWord_of_startsWord : forall {char : Char},
    startsWord char = true -> continuesWord char = true
  continuesWord_of_blank : forall {char : Char},
    char.toNat ∈ patternBlanks ++ otherBlanks -> continuesWord char = false
  continuesWord_byteOrderMark : continuesWord '\uFEFF' = false
  normalForm_of_ascii : forall {word : List Char},
    (forall char, char ∈ word -> char.toNat < 0x80) -> normalForm word = word

namespace Dialect

/-- The lexers that know Unicode 17 and take words in the form in which they are written. -/
@[reducible]
def unicode (strict : Bool) : Dialect where
  strict := strict
  startsWord := Letters.startsWord
  continuesWord := Letters.continuesWord
  normalForm word := word
  startsWord_of_ascii := Letters.startsWord_of_ascii
  continuesWord_of_ascii := Letters.continuesWord_of_ascii
  continuesWord_of_startsWord := Letters.continuesWord_of_startsWord
  continuesWord_of_blank {char} hblank := by
    have hall : forall code, code ∈ patternBlanks ++ otherBlanks ->
        Letters.continuesWord (Char.ofNat code) = false := by decide +kernel
    rw [← Char.ofNat_toNat char]
    exact hall char.toNat hblank
  continuesWord_byteOrderMark := by decide +kernel
  normalForm_of_ascii _ := rfl

end Dialect
end CilDisasm
