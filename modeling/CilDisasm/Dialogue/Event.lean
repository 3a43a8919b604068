import CilDisasm.Listing.Basic
import CilDisasm.Metadata.Query

/-!
# Events

What the library reports while it works. An event is kept as the facts it carries and is
put into words only where somebody reads it.
-/

namespace CilDisasm

inductive EventLevel where
  | debug
  | trace
deriving DecidableEq, Repr

def EventLevel.name : EventLevel -> String
  | debug => "DEBUG"
  | trace => "TRACE"

inductive Event where
  | catalogBuilt (entries : Nat)
  | decoded (instruction : Instruction)
  | danglingTarget (offset : Int)
  | cacheMiss (query : Query)
  | disassembling (method : String) (codeLength : Nat)
  | disassembled (method : String) (instructions : Nat)
  | bytesDecoded (count : Nat)
deriving DecidableEq, Repr

namespace Event

def level : Event -> EventLevel
  | decoded _ => .trace
  | cacheMiss _ => .trace
  | _ => .debug

def message : Event -> String
  | catalogBuilt entries => s!"built opcode catalog with {entries} entries"
  | decoded instruction => instruction.text
  | danglingTarget offset =>
      s!"branch target {offset} does not start an instruction"
  | cacheMiss query => s!"{query.kindName} cache miss for {query.token.text}"
  | disassembling method codeLength => s!"disassembling {method} ({codeLength} bytes)"
  | disassembled method instructions =>
      s!"decoded {instructions} instructions from {method}"
  | bytesDecoded count => s!"{count} bytes decoded"

end Event

end CilDisasm
