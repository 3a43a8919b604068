import CilDisasm.Decoding.Payload

/-!
# Segments

A method body is cut into segments, one for each instruction: the code of an opcode and
its payload. Cutting goes from front to back and ends at the first place where no
instruction can be read.
-/

namespace CilDisasm

namespace OpcodeCode

def read : Reading OpcodeCode :=
  fun cursor =>
    match Cursor.read UInt8 cursor with
    | .error error => .error error
    | .ok (first, next) =>
        if first = extensionByte then
          match Cursor.read UInt8 next with
          | .error error => .error error
          | .ok (second, last) => .ok (.twoByte second, last)
        else
          .ok (.oneByte first, next)

theorem follows_of_read {cursor next : Cursor} {code : OpcodeCode}
    (h : read cursor = .ok (code, next)) :
    Cursor.Follows cursor next ∧ cursor.position < next.position := by
  unfold read at h
  split at h
  · cases h
  · next hfirst =>
      obtain ⟨-, -, hnext⟩ := Cursor.read_eq_ok_iff.mp hfirst
      have hlt := congrArg Cursor.position hnext
      simp only [Word.width] at hlt
      split at h
      · split at h
        · cases h
        · next hsecond =>
            cases h
            have hfollows := Cursor.follows_of_read hsecond
            refine ⟨(Cursor.follows_of_read hfirst).trans hfollows, ?_⟩
            have hle := hfollows.position_le
            omega
      · cases h
        refine ⟨Cursor.follows_of_read hfirst, ?_⟩
        omega

end OpcodeCode

/-- One instruction of a method body before anything is looked up. `limit` is the offset
just behind its last byte. -/
structure Segment where
  offset : Nat
  opcode : Opcode
  payload : Payload
  limit : Nat
deriving DecidableEq, Repr

namespace Segment

def read (catalog : Catalog) (cursor : Cursor) :
    Except SegmentFault (Segment × Cursor) :=
  match OpcodeCode.read cursor with
  | .error error => .error (.outOfRange error)
  | .ok (code, next) =>
      match catalog.lookup code with
      | none => .error (.unknownOpcode code.value)
      | some opcode =>
          match Payload.read opcode next with
          | .error fault => .error fault
          | .ok (payload, last) =>
              .ok
                ({ offset := cursor.position
                   opcode := opcode
                   payload := payload
                   limit := last.position },
                  last)

theorem follows_of_read {catalog : Catalog} {cursor next : Cursor} {segment : Segment}
    (h : read catalog cursor = .ok (segment, next)) :
    Cursor.Follows cursor next ∧ cursor.position < next.position := by
  unfold read at h
  split at h
  · cases h
  · next hcode =>
      obtain ⟨hfollows, hlt⟩ := OpcodeCode.follows_of_read hcode
      split at h
      · cases h
      · split at h
        · cases h
        · next hpayload =>
            cases h
            have hlast := Payload.follows_of_read hpayload
            exact ⟨hfollows.trans hlast, Nat.lt_of_lt_of_le hlt hlast.position_le⟩

theorem remaining_lt_of_read {catalog : Catalog} {cursor next : Cursor}
    {segment : Segment} (hmore : cursor.atEnd = false)
    (h : read catalog cursor = .ok (segment, next)) :
    next.remaining < cursor.remaining := by
  obtain ⟨hfollows, hlt⟩ := follows_of_read h
  have hbuffer := congrArg Array.size hfollows.buffer_eq
  simp only [Cursor.atEnd, decide_eq_false_iff_not] at hmore
  simp only [Cursor.remaining]
  omega

end Segment

/-!
# Cutting a method body
-/

/-- The segments of a method body up to the first place where none can be read, and what
is wrong there. -/
structure Cut where
  segments : Array Segment
  fault : Option (Nat × SegmentFault)

namespace Cut

def continueFrom (catalog : Catalog) (cursor : Cursor) (done : Array Segment) : Cut :=
  if hmore : cursor.atEnd = false then
    match h : Segment.read catalog cursor with
    | .ok (segment, next) =>
        have := Segment.remaining_lt_of_read hmore h
        continueFrom catalog next (done.push segment)
    | .error fault => { segments := done, fault := some (cursor.position, fault) }
  else
    { segments := done, fault := none }
termination_by cursor.remaining

def ofCode (catalog : Catalog) (code : List UInt8) : Cut :=
  continueFrom catalog (.ofBytes code) #[]

end Cut

end CilDisasm
