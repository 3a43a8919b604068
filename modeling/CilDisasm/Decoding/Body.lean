import CilDisasm.Decoding.Error
import CilDisasm.Dialogue.Basic

/-!
# Decoding

The segments of a method body become instructions one after the other: payloads turn into
operands, which may take a query, and every finished instruction is reported. Only then
does a fault in the cutting come to light, so what precedes it has been asked for and
reported. At the end branch targets are matched with the instructions of the listing.
-/

namespace CilDisasm

/-- Offsets are numbers of 32 bits, so a method body has fewer than `2 ^ 32` bytes. -/
def codeLengthLimit : Nat :=
  UInt32.size

namespace Segment

/-- The place a branch goes to, counted from the end of its instruction. -/
def destination (segment : Segment) (distance : Int) : Target :=
  .unresolved (segment.limit + distance)

def symbolOperand (segment : Segment) (query : Query) (make : query.Answer -> Operand) :
    Dialogue (Except DecodeError Operand) :=
  (Dialogue.resolve query).bind fun
    | .ok answer => .done (.ok (make answer))
    | .error error => .done (.error (.symbol segment.offset error))

def localOperand (segment : Segment) (body : MethodBody) (index : UInt16) :
    Except DecodeError Operand :=
  match body.locals[index.toNat]? with
  | some slot => .ok (.localVariable slot)
  | none =>
      .error (.slotOutOfRange .localVariable index body.locals.length segment.offset)

def argumentOperand (segment : Segment) (body : MethodBody) (index : UInt16) :
    Except DecodeError Operand :=
  match body.argument? index.toNat with
  | some argument => .ok (.argument argument)
  | none => .error (.slotOutOfRange .argument index body.argumentCount segment.offset)

def operand (segment : Segment) (body : MethodBody) :
    Dialogue (Except DecodeError Operand) :=
  match segment.payload with
  | .none => .done (.ok .none)
  | .int8 value => .done (.ok (.int8 value))
  | .uint8 value => .done (.ok (.uint8 value))
  | .int32 value => .done (.ok (.int32 value))
  | .int64 value => .done (.ok (.int64 value))
  | .float32 value => .done (.ok (.float32 value))
  | .float64 value => .done (.ok (.float64 value))
  | .shortBranch distance => .done (.ok (.branch (segment.destination distance.toInt)))
  | .branch distance => .done (.ok (.branch (segment.destination distance.toInt)))
  | .switch distances =>
      .done (.ok (.switch (distances.map fun distance =>
        segment.destination distance.toInt)))
  | .string token => segment.symbolOperand (.string token) .string
  | .member token => segment.symbolOperand (.member token body.context) .member
  | .signature token => segment.symbolOperand (.signature token) .signature
  | .shortLocalSlot index => .done (segment.localOperand body index.toUInt16)
  | .localSlot index => .done (segment.localOperand body index)
  | .shortArgumentSlot index => .done (segment.argumentOperand body index.toUInt16)
  | .argumentSlot index => .done (segment.argumentOperand body index)

end Segment

namespace Listing

def extend (body : MethodBody) :
    List Segment -> Listing -> Dialogue (Except DecodeError Listing)
  | [], listing => .done (.ok listing)
  | segment :: rest, listing =>
      (segment.operand body).bind fun
        | .error error => .done (.error error)
        | .ok operand =>
            let instruction := listing.appended segment.offset segment.opcode operand
            (Dialogue.report (.decoded instruction)).bind fun _ =>
              extend body rest (listing.push segment.offset segment.opcode operand)

/-- Matches targets with instructions and reports those that match none. -/
def settle (listing : Listing) : Dialogue Listing :=
  let settled := listing.resolveTargets
  (Dialogue.reportAll (settled.danglingOffsets.map .danglingTarget)).bind fun _ =>
    .done settled

end Listing

namespace MethodBody

def decode (catalog : Catalog) (body : MethodBody) :
    Dialogue (Except DecodeError Listing) :=
  if codeLengthLimit ≤ body.code.length then
    .done (.error (.bodyTooLarge body.code.length))
  else
    let cut := Cut.ofCode catalog body.code
    (Listing.empty.extend body cut.segments.toList).bind fun
      | .error error => .done (.error error)
      | .ok listing =>
          match cut.fault with
          | some (offset, fault) => .done (.error (.ofFault offset fault))
          | none => listing.settle.bind fun settled => .done (.ok settled)

end MethodBody

def Catalog.build (definitions : List Opcode) : Dialogue (Except CatalogError Catalog) :=
  match Catalog.ofDefinitions definitions with
  | .error error => .done (.error error)
  | .ok catalog =>
      (Dialogue.report (.catalogBuilt catalog.size)).bind fun _ => .done (.ok catalog)

end CilDisasm
