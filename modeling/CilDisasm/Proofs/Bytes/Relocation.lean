import CilDisasm.Proofs.Bytes.Consumption

/-!
# Relocation

A reading depends on the bytes ahead of the cursor and on nothing behind it. At the same place
of a buffer that has other bytes in front, it gives the same value; only positions and lengths
count the bytes in front as well.
-/

namespace CilDisasm

def OutOfRange.moved (distance : Nat) (error : OutOfRange) : OutOfRange :=
  { error with
    position := error.position + distance
    length := error.length + distance }

namespace Cursor

def behind (front : List UInt8) (cursor : Cursor) : Cursor :=
  { buffer := front.toArray ++ cursor.buffer
    position := front.length + cursor.position }

/-- What a reading of `cursor` has to give at the same place behind `front`. -/
def relocate {ε α : Type} (front : List UInt8) (moveError : ε -> ε) (moveValue : α -> α) :
    Except ε (α × Cursor) -> Except ε (α × Cursor)
  | .ok (value, next) => .ok (moveValue value, next.behind front)
  | .error error => .error (moveError error)

variable {front : List UInt8} {cursor next : Cursor}

@[simp] theorem size_buffer_behind :
    (cursor.behind front).buffer.size = front.length + cursor.buffer.size := by
  simp [behind]

@[simp] theorem position_behind :
    (cursor.behind front).position = front.length + cursor.position :=
  rfl

@[simp] theorem unread_behind : (cursor.behind front).unread = cursor.unread := by
  simp [unread, behind, List.drop_append]

theorem behind_ofBytes (bytes : List UInt8) :
    (ofBytes bytes).behind front =
      { ofBytes (front ++ bytes) with position := front.length } := by
  simp [behind, ofBytes]

theorem outOfRange_behind (needed : Nat) :
    (cursor.behind front).outOfRange needed =
      (cursor.outOfRange needed).moved front.length := by
  simp [outOfRange, OutOfRange.moved, Nat.add_comm]

theorem fits_behind_iff (needed : Nat) :
    (cursor.behind front).position + needed ≤ (cursor.behind front).buffer.size <->
      cursor.position + needed ≤ cursor.buffer.size := by
  rw [position_behind, size_buffer_behind, Nat.add_assoc]
  exact Nat.add_le_add_iff_left

theorem atEnd_behind : (cursor.behind front).atEnd = cursor.atEnd := by
  simp [atEnd]

theorem ensure_behind (needed : Nat) :
    ensure needed (cursor.behind front) =
      relocate front (OutOfRange.moved front.length) id (ensure needed cursor) := by
  unfold ensure
  by_cases h : cursor.position + needed ≤ cursor.buffer.size
  · rw [if_pos h, if_pos ((fits_behind_iff needed).mpr h)]
    rfl
  · rw [if_neg h, if_neg (mt (fits_behind_iff needed).mp h), outOfRange_behind]
    rfl

theorem read_eq_if {α : Type} [Word α] :
    read α cursor =
      if cursor.position + Word.width α ≤ cursor.buffer.size then
        .ok (Word.ofBytes α (cursor.unread.take (Word.width α)),
          { cursor with position := cursor.position + Word.width α })
      else
        .error (cursor.outOfRange (Word.width α)) := by
  by_cases h : cursor.position + Word.width α ≤ cursor.buffer.size
  · rw [if_pos h]
    exact read_eq_ok_iff.mpr ⟨h, rfl, rfl⟩
  · rw [if_neg h, read, readBytes]
    simp only [if_neg h]

theorem read_behind {α : Type} [Word α] :
    read α (cursor.behind front) =
      relocate front (OutOfRange.moved front.length) id (read α cursor) := by
  rw [read_eq_if, read_eq_if]
  by_cases h : cursor.position + Word.width α ≤ cursor.buffer.size
  · rw [if_pos h, if_pos ((fits_behind_iff _).mpr h), unread_behind, position_behind,
      Nat.add_assoc]
    rfl
  · rw [if_neg h, if_neg (mt (fits_behind_iff _).mp h), outOfRange_behind]
    rfl

theorem readMany_behind {α : Type} [Word α] (count : Nat) (values : Array α) :
    readMany α count values (cursor.behind front) =
      relocate front (OutOfRange.moved front.length) id
        (readMany α count values cursor) := by
  induction count generalizing values cursor with
  | zero => rfl
  | succ count ih =>
      unfold readMany
      rw [read_behind]
      cases read α cursor with
      | error error => rfl
      | ok reply => exact ih (values.push reply.1)

theorem Consumes.behind {bytes : List UInt8} (h : cursor.Consumes bytes next) :
    (cursor.behind front).Consumes bytes (next.behind front) where
  buffer_eq := by
    rw [Cursor.behind, Cursor.behind, h.buffer_eq]
  position_eq := by
    rw [position_behind, position_behind, h.position_eq, Nat.add_assoc]
  unread_eq := by
    rw [unread_behind, unread_behind, h.unread_eq]
  position_le := by
    rw [position_behind, size_buffer_behind]
    exact Nat.add_le_add_left h.position_le _

end Cursor

end CilDisasm
