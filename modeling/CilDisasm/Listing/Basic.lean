import CilDisasm.Listing.Instruction

/-!
# Listings

A listing is a sequence of instructions in order of offset. Instructions are appended one
at a time, and appending links the new one with the one that was last.
-/

namespace CilDisasm

structure Listing where
  instructions : Array Instruction
deriving DecidableEq, Repr

structure IndexOutOfBounds where
  length : Nat
  index : Nat
deriving DecidableEq, Repr

def IndexOutOfBounds.message (error : IndexOutOfBounds) : String :=
  s!"index out of bounds: the len is {error.length} but the index is {error.index}"

namespace Listing

def empty : Listing :=
  { instructions := #[] }

def length (listing : Listing) : Nat :=
  listing.instructions.size

def isEmpty (listing : Listing) : Bool :=
  listing.instructions.isEmpty

def toList (listing : Listing) : List Instruction :=
  listing.instructions.toList

def get? (listing : Listing) (index : Nat) : Option Instruction :=
  listing.instructions[index]?

def get (listing : Listing) (index : Nat) : Except IndexOutOfBounds Instruction :=
  match listing.get? index with
  | some instruction => .ok instruction
  | none => .error { length := listing.length, index := index }

def first? (listing : Listing) : Option Instruction :=
  listing.get? 0

def last? (listing : Listing) : Option Instruction :=
  listing.instructions.back?

def appended (listing : Listing) (offset : Nat) (opcode : Opcode) (operand : Operand) :
    Instruction :=
  { index := listing.length
    offset := offset
    opcode := opcode
    operand := operand
    previous := if listing.length = 0 then none else some (listing.length - 1)
    next := none }

def push (listing : Listing) (offset : Nat) (opcode : Opcode) (operand : Operand) :
    Listing :=
  let length := listing.instructions.size
  let instruction := listing.appended offset opcode operand
  let linked := listing.instructions.modify (length - 1)
    (fun last => { last with next := some length })
  { instructions := linked.push instruction }

theorem length_push (listing : Listing) (offset : Nat) (opcode : Opcode)
    (operand : Operand) :
    (listing.push offset opcode operand).length = listing.length + 1 := by
  simp [length, push]

/-- Appending changes one former instruction: the last one gets a successor. -/
theorem get?_push (listing : Listing) (offset : Nat) (opcode : Opcode)
    (operand : Operand) (index : Nat) :
    (listing.push offset opcode operand).get? index =
      if index = listing.length then some (listing.appended offset opcode operand)
      else if index + 1 = listing.length then
        (listing.get? index).map (fun last => { last with next := some listing.length })
      else listing.get? index := by
  unfold get? push length
  simp only [Array.getElem?_push, Array.size_modify, Array.getElem?_modify]
  by_cases hlast : index = listing.instructions.size
  · simp [hlast]
  · by_cases hbefore : index + 1 = listing.instructions.size
    · have hindex : listing.instructions.size - 1 = index := by omega
      simp [hlast, hbefore, hindex]
    · have hindex : ¬ listing.instructions.size - 1 = index := by omega
      simp [hlast, hbefore, hindex]

/-- The instruction in front of `instruction`, by the link it carries. -/
def previous? (listing : Listing) (instruction : Instruction) : Option Instruction :=
  instruction.previous.bind listing.get?

def next? (listing : Listing) (instruction : Instruction) : Option Instruction :=
  instruction.next.bind listing.get?

/-!
# Offsets

Offsets ascend, so the instruction at an offset is found by halving the range of positions
that can hold it.
-/

def searchOffset (listing : Listing) (offset low high : Nat) : Option Instruction :=
  if low < high then
    match listing.get? ((low + high) / 2) with
    | some instruction =>
        if instruction.offset = offset then some instruction
        else if instruction.offset < offset then
          listing.searchOffset offset ((low + high) / 2 + 1) high
        else
          listing.searchOffset offset low ((low + high) / 2)
    | none => none
  else
    none
termination_by high - low

def atOffset? (listing : Listing) (offset : Nat) : Option Instruction :=
  listing.searchOffset offset 0 listing.length

/-- The label of the instruction that starts at an absolute offset. Offsets are numbers of
32 bits, so there is none outside of their range. -/
def labelAt? (listing : Listing) (offset : Int) : Option Label :=
  if 0 ≤ offset ∧ offset < UInt32.size then
    (listing.atOffset? offset.toNat).map Instruction.label
  else
    none

def target? (listing : Listing) (target : Target) : Option Instruction :=
  target.label?.bind (fun label => listing.get? label.index)

/-!
# Resolving targets

Every target that is still an offset becomes the label of the instruction that starts
there. A target without such an instruction stays as it is, and so does all else.
-/

def resolveTarget (listing : Listing) : Target -> Target
  | .resolved label => .resolved label
  | .unresolved offset =>
      match listing.labelAt? offset with
      | some label => .resolved label
      | none => .unresolved offset

def resolveTargets (listing : Listing) : Listing :=
  { instructions :=
      listing.instructions.map (fun instruction =>
        instruction.mapTargets listing.resolveTarget) }

def danglingOffsets (listing : Listing) : List Int :=
  listing.toList.flatMap (fun instruction =>
    instruction.targets.filterMap (fun target =>
      match target with
      | .resolved _ => none
      | .unresolved offset => some offset))

/-!
# Size, text and comparison
-/

def byteLength (listing : Listing) : Nat :=
  listing.instructions.foldl (fun total instruction => total + instruction.size) 0

def text (listing : Listing) : String :=
  listing.instructions.foldl (fun lines instruction => lines ++ instruction.text ++ "\n") ""

def agrees (left right : Listing) : Bool :=
  left.length = right.length &&
    (left.toList.zip right.toList).all (fun pair => pair.1.agrees pair.2)

end Listing

end CilDisasm
