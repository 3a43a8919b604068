import CilDisasm.Decoding.Body

/-!
# Disassembly

The body of a method is fetched from a source of method bodies and decoded with the standard
catalog. Whatever names a method has to be printable. Several methods are taken in the order
they are asked for, and a failure concerns only the method in which it occurs.
-/

namespace CilDisasm

/-- Where method bodies come from. A method without a body cannot be disassembled. -/
abbrev MethodSource (μ : Type) : Type :=
  μ -> Option MethodBody

namespace MethodSource

variable {μ : Type} [ToString μ]

def disassemble (source : MethodSource μ) (method : μ) :
    Dialogue (Except DecodeError Listing) :=
  match source method with
  | none => .done (.error (.noBody (toString method)))
  | some body =>
      (Dialogue.report (.disassembling (toString method) body.code.length)).bind fun _ =>
      (body.decode .standard).bind fun
        | .error error => .done (.error error)
        | .ok listing =>
            (Dialogue.report (.disassembled (toString method) listing.length)).bind fun _ =>
              .done (.ok listing)

def disassembleAll (source : MethodSource μ) :
    List μ -> Dialogue (List (μ × Except DecodeError Listing))
  | [] => .done []
  | method :: rest =>
      (source.disassemble method).bind fun outcome =>
      (source.disassembleAll rest).bind fun outcomes =>
        .done ((method, outcome) :: outcomes)

end MethodSource

end CilDisasm
