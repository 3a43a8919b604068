import CilDisasm.Bytes.LittleEndian

/-!
# Cursor

A cursor reads a buffer from front to back. Every operation first compares its end with
the length of the buffer: it consumes exactly its width, or it fails and there is no new
cursor, so the caller goes on with the one it has. `unread` is the part of the buffer that
is still ahead.
-/

namespace CilDisasm

/-- A read of `needed` bytes at `position` that ends behind a buffer of `length` bytes. -/
structure OutOfRange where
  position : Nat
  needed : Nat
  length : Nat
deriving DecidableEq, Repr

def OutOfRange.message (error : OutOfRange) : String :=
  s!"read of {error.needed} bytes at position {error.position} exceeds buffer of {error.length} bytes"

structure Cursor where
  buffer : Array UInt8
  position : Nat

namespace Cursor

def ofBytes (bytes : List UInt8) : Cursor :=
  { buffer := bytes.toArray, position := 0 }

def length (cursor : Cursor) : Nat :=
  cursor.buffer.size

def isEmpty (cursor : Cursor) : Bool :=
  cursor.buffer.isEmpty

def remaining (cursor : Cursor) : Nat :=
  cursor.buffer.size - cursor.position

def atEnd (cursor : Cursor) : Bool :=
  cursor.buffer.size ≤ cursor.position

def unread (cursor : Cursor) : List UInt8 :=
  cursor.buffer.toList.drop cursor.position

def outOfRange (cursor : Cursor) (needed : Nat) : OutOfRange :=
  { position := cursor.position, needed := needed, length := cursor.buffer.size }

/-- The position just behind the buffer is a valid place to move to. -/
def seek (position : Nat) (cursor : Cursor) : Except OutOfRange Cursor :=
  if position ≤ cursor.buffer.size then
    .ok { cursor with position := position }
  else
    .error { position := position, needed := 0, length := cursor.buffer.size }

end Cursor

/-!
# Reading

A reading takes a cursor and gives a value together with the cursor behind it.
-/

abbrev Reading (α : Type) : Type :=
  Cursor -> Except OutOfRange (α × Cursor)

namespace Cursor

/-- Succeeds without moving when `needed` more bytes can be read. -/
def ensure (needed : Nat) : Reading Unit :=
  fun cursor =>
    if cursor.position + needed ≤ cursor.buffer.size then .ok ((), cursor)
    else .error (cursor.outOfRange needed)

def readBytes (count : Nat) : Reading (List UInt8) :=
  fun cursor =>
    let stop := cursor.position + count
    if stop ≤ cursor.buffer.size then
      .ok ((cursor.buffer.extract cursor.position stop).toList,
        { cursor with position := stop })
    else
      .error (cursor.outOfRange count)

def read (α : Type) [Word α] : Reading α :=
  fun cursor =>
    match readBytes (Word.width α) cursor with
    | .ok (bytes, next) => .ok (Word.ofBytes α bytes, next)
    | .error error => .error error

def readMany (α : Type) [Word α] : (count : Nat) -> Array α -> Reading (Array α)
  | 0, values, cursor => .ok (values, cursor)
  | count + 1, values, cursor =>
      match read α cursor with
      | .ok (value, next) => readMany α count (values.push value) next
      | .error error => .error error

/-!
# What a reading does to the unread bytes
-/

theorem unread_ofBytes (bytes : List UInt8) : (ofBytes bytes).unread = bytes := by
  simp [unread, ofBytes]

theorem length_unread (cursor : Cursor) : cursor.unread.length = cursor.remaining := by
  simp [unread, remaining]

theorem readBytes_eq_ok_iff {count : Nat} {cursor next : Cursor} {bytes : List UInt8} :
    readBytes count cursor = .ok (bytes, next) <->
      cursor.position + count ≤ cursor.buffer.size ∧
        cursor.unread.take count = bytes ∧
        { cursor with position := cursor.position + count } = next := by
  unfold readBytes
  by_cases h : cursor.position + count ≤ cursor.buffer.size
  · simp [h, unread, List.extract_eq_take_drop]
  · simp [h]

theorem read_eq_ok_iff {α : Type} [Word α] {cursor next : Cursor} {value : α} :
    read α cursor = .ok (value, next) <->
      cursor.position + Word.width α ≤ cursor.buffer.size ∧
        Word.ofBytes α (cursor.unread.take (Word.width α)) = value ∧
        { cursor with position := cursor.position + Word.width α } = next := by
  unfold read readBytes
  by_cases h : cursor.position + Word.width α ≤ cursor.buffer.size
  · simp [h, unread, List.extract_eq_take_drop]
  · simp [h]

theorem unread_of_read {α : Type} [Word α] {cursor next : Cursor} {value : α}
    (h : read α cursor = .ok (value, next)) :
    next.unread = cursor.unread.drop (Word.width α) := by
  obtain ⟨-, -, rfl⟩ := read_eq_ok_iff.mp h
  simp [unread]

/-- What one reading does to a cursor: it stays in the buffer and never moves back. -/
structure Follows (cursor next : Cursor) : Prop where
  buffer_eq : next.buffer = cursor.buffer
  position_le : cursor.position ≤ next.position
  position_le_size : cursor.position ≤ cursor.buffer.size -> next.position ≤ next.buffer.size

theorem Follows.refl (cursor : Cursor) : Follows cursor cursor :=
  ⟨rfl, Nat.le_refl _, id⟩

theorem Follows.trans {first second third : Cursor} (h : Follows first second)
    (h' : Follows second third) : Follows first third := by
  refine ⟨h'.buffer_eq.trans h.buffer_eq, Nat.le_trans h.position_le h'.position_le, ?_⟩
  intro hfirst
  exact h'.position_le_size (h.position_le_size hfirst)

theorem follows_of_read {α : Type} [Word α] {cursor next : Cursor} {value : α}
    (h : read α cursor = .ok (value, next)) : Follows cursor next := by
  obtain ⟨hle, -, rfl⟩ := read_eq_ok_iff.mp h
  exact ⟨rfl, Nat.le_add_right _ _, fun _ => hle⟩

theorem follows_of_readMany {α : Type} [Word α] {count : Nat} {values result : Array α}
    {cursor next : Cursor} (h : readMany α count values cursor = .ok (result, next)) :
    Follows cursor next := by
  induction count generalizing values cursor with
  | zero =>
      simp only [readMany, Except.ok.injEq, Prod.mk.injEq] at h
      exact h.2 ▸ Follows.refl cursor
  | succ count ih =>
      unfold readMany at h
      split at h
      · next hread => exact (follows_of_read hread).trans (ih h)
      · cases h

end Cursor

end CilDisasm
