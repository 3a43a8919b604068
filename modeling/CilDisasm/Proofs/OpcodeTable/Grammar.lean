import CilDisasm.OpcodeTable.Expansion
import CilDisasm.Proofs.OpcodeTable.Layout

/-!
# The grammar of opcode tables

A table is a row of entries with semicolons between them, and one more may stand behind the
last. A text is read as a table exactly if it is a layout of one, and the entries read are the
entries laid out.
-/

namespace CilDisasm
namespace OpcodeTable

open Lexis

/-- What may follow a token of a table: a mark behind a word, and a word behind a semicolon. -/
def Follows (first second : TableToken) : Prop :=
  (isWord first = true -> isWord second = false) ∧
    (first = .semicolon -> isWord second = true)

section Texts

variable [Dialect] {text : String} {tokens : List TableToken} {entries : List TableEntry}

end Texts

/-!
# Entries that can be written
-/

section Writing

variable [Dialect]

end Writing

-- A lenient lexer takes the letter for a suffix, and passes over any blank.
example :
    @entries? (.unicode true) "A: \"a\" = 1e, K, T;" = none ∧
      (@entries? (.unicode false) "A: \"a\" =\u00A01e, K, T;").isSome = true := by
  decide +kernel

example : @entries? (.unicode true) "A: \"a\" = 0x00, K, T;;" = none := by
  decide +kernel

end OpcodeTable
end CilDisasm
