import CilDisasm.Decoding.Payload

/-!
# Assembler

An assembler collects the bytes of a method body. It writes what it is told: nothing
checks that an operand suits the opcode in front of it.
-/

namespace CilDisasm

structure Assembler where
  output : Array UInt8

namespace Assembler

def empty : Assembler :=
  { output := #[] }

def position (assembler : Assembler) : Nat :=
  assembler.output.size

def append (assembler : Assembler) (bytes : List UInt8) : Assembler :=
  { output := assembler.output ++ bytes }

def opcode (assembler : Assembler) (opcode : Opcode) : Assembler :=
  assembler.append opcode.bytes

def word {α : Type} [Word α] (assembler : Assembler) (value : α) : Assembler :=
  assembler.append (Word.toBytes value)

def token (assembler : Assembler) (token : Token) : Assembler :=
  assembler.word token.value

/-- A jump table is the number of its entries and then the entries, which count from the
end of the table. -/
def jumpTable (assembler : Assembler) (distances : List Int32) : Assembler :=
  distances.foldl word (assembler.word (UInt32.ofNat distances.length))

def payload (assembler : Assembler) (payload : Payload) : Assembler :=
  assembler.append payload.bytes

def finish (assembler : Assembler) : List UInt8 × Assembler :=
  (assembler.output.toList, empty)

/-!
# What an assembler holds
-/

def written (assembler : Assembler) : List UInt8 :=
  assembler.output.toList

@[simp] theorem written_empty : empty.written = [] :=
  rfl

@[simp] theorem written_append (assembler : Assembler) (bytes : List UInt8) :
    (assembler.append bytes).written = assembler.written ++ bytes := by
  simp [written, append]

@[simp] theorem written_opcode (assembler : Assembler) (opcode : Opcode) :
    (assembler.opcode opcode).written = assembler.written ++ opcode.bytes :=
  written_append assembler opcode.bytes

@[simp] theorem written_word {α : Type} [Word α] (assembler : Assembler) (value : α) :
    (assembler.word value).written = assembler.written ++ Word.toBytes value :=
  written_append assembler (Word.toBytes value)

@[simp] theorem written_payload (assembler : Assembler) (payload : Payload) :
    (assembler.payload payload).written = assembler.written ++ payload.bytes :=
  written_append assembler payload.bytes

theorem written_foldl_word {α : Type} [Word α] (assembler : Assembler) (values : List α) :
    (values.foldl word assembler).written =
      assembler.written ++ values.flatMap Word.toBytes := by
  induction values generalizing assembler with
  | nil => simp
  | cons value rest ih => simp [ih]

@[simp] theorem written_jumpTable (assembler : Assembler) (distances : List Int32) :
    (assembler.jumpTable distances).written =
      assembler.written ++ (Payload.switch distances).bytes := by
  simp [jumpTable, written_foldl_word, Payload.bytes]

theorem position_eq (assembler : Assembler) :
    assembler.position = assembler.written.length := by
  simp [position, written]

theorem finish_eq (assembler : Assembler) :
    assembler.finish = (assembler.written, empty) :=
  rfl

end Assembler

end CilDisasm
