import CilDisasm.Proofs.Bytes.Relocation

/-!
# Kinds of words

What a word of each kind means is a number: the one that its bytes are numbered by, or the
integer that two's complement gives to this number. The number of a float is its bit pattern.
-/

namespace CilDisasm

inductive WordKind where
  | uint8
  | int8
  | uint16
  | int16
  | uint32
  | int32
  | int64
  | float32
  | float64
deriving DecidableEq, Repr

namespace WordKind

def Value : WordKind -> Type
  | uint8 => UInt8
  | int8 => Int8
  | uint16 => UInt16
  | int16 => Int16
  | uint32 => UInt32
  | int32 => Int32
  | int64 => Int64
  | float32 => Binary32
  | float64 => Binary64

instance : (kind : WordKind) -> Word kind.Value
  | uint8 => inferInstanceAs (Word UInt8)
  | int8 => inferInstanceAs (Word Int8)
  | uint16 => inferInstanceAs (Word UInt16)
  | int16 => inferInstanceAs (Word Int16)
  | uint32 => inferInstanceAs (Word UInt32)
  | int32 => inferInstanceAs (Word Int32)
  | int64 => inferInstanceAs (Word Int64)
  | float32 => inferInstanceAs (Word Binary32)
  | float64 => inferInstanceAs (Word Binary64)

def width : WordKind -> Nat
  | uint8 | int8 => 1
  | uint16 | int16 => 2
  | uint32 | int32 | float32 => 4
  | int64 | float64 => 8

def isSigned : WordKind -> Bool
  | int8 | int16 | int32 | int64 => true
  | _ => false

def meaning : (kind : WordKind) -> kind.Value -> Int
  | uint8, value => UInt8.toNat value
  | int8, value => Int8.toInt value
  | uint16, value => UInt16.toNat value
  | int16, value => Int16.toInt value
  | uint32, value => UInt32.toNat value
  | int32, value => Int32.toInt value
  | int64, value => Int64.toInt value
  | float32, value => (Binary32.bits value).toNat
  | float64, value => (Binary64.bits value).toNat

def meaningOfBytes (kind : WordKind) (bytes : List UInt8) : Int :=
  if kind.isSigned then (LittleEndian.number bytes : Int).bmod (Nat.pow 256 kind.width)
  else LittleEndian.number bytes

theorem width_value (kind : WordKind) : Word.width kind.Value = kind.width := by
  cases kind <;> rfl

theorem width_lt (kind : WordKind) : kind.width < UInt64.size := by
  cases kind <;> decide

theorem width_pos (kind : WordKind) : 0 < kind.width := by
  cases kind <;> decide

theorem capacity_width (kind : WordKind) :
    LittleEndian.capacity kind.width = Nat.pow 256 kind.width := by
  cases kind <;> decide

theorem meaning_ofNumber (kind : WordKind) {n : Nat} (h : n < Nat.pow 256 kind.width) :
    kind.meaning (Word.ofNumber n) =
      if kind.isSigned then (n : Int).bmod (Nat.pow 256 kind.width) else n := by
  have hnumber : n % Nat.pow 256 kind.width = n := Nat.mod_eq_of_lt h
  cases kind with
  | uint8 => exact congrArg Nat.cast (UInt8.toNat_ofNat'.trans hnumber)
  | uint16 => exact congrArg Nat.cast (UInt16.toNat_ofNat'.trans hnumber)
  | uint32 => exact congrArg Nat.cast (UInt32.toNat_ofNat'.trans hnumber)
  | float32 => exact congrArg Nat.cast (UInt32.toNat_ofNat'.trans hnumber)
  | float64 => exact congrArg Nat.cast (UInt64.toNat_ofNat'.trans hnumber)
  | int8 =>
      have hvalue : ((UInt8.ofNat n).toInt8).toInt = (n : Int).bmod 0x100 := by simp
      exact hvalue.trans (if_pos (rfl : isSigned _ = true)).symm
  | int16 =>
      have hvalue : ((UInt16.ofNat n).toInt16).toInt = (n : Int).bmod 0x10000 := by simp
      exact hvalue.trans (if_pos (rfl : isSigned _ = true)).symm
  | int32 =>
      have hvalue : ((UInt32.ofNat n).toInt32).toInt = (n : Int).bmod 0x100000000 := by simp
      exact hvalue.trans (if_pos (rfl : isSigned _ = true)).symm
  | int64 =>
      have hvalue : ((UInt64.ofNat n).toInt64).toInt = (n : Int).bmod 0x10000000000000000 := by simp
      exact hvalue.trans (if_pos (rfl : isSigned _ = true)).symm

theorem meaning_ofBytes (kind : WordKind) {bytes : List UInt8} (h : bytes.length = kind.width) :
    kind.meaning (Word.ofBytes kind.Value bytes) = kind.meaningOfBytes bytes := by
  have hlt := LittleEndian.number_lt bytes
  rw [h, capacity_width] at hlt
  exact kind.meaning_ofNumber hlt

end WordKind

/-!
# Operations

An operation asks for some bytes from some place on. It succeeds if they lie in the buffer.
-/

/-- What a caller can do with a cursor. Arguments are any machine numbers. -/
inductive CursorOperation where
  | read (kind : WordKind)
  | readBytes (count : UInt64)
  | ensure (needed : UInt64)
  | seek (target : UInt64)
deriving DecidableEq, Repr

namespace CursorOperation

def Value : CursorOperation -> Type
  | read kind => kind.Value
  | readBytes _ => List UInt8
  | ensure _ => Unit
  | seek _ => Unit

def reading : (operation : CursorOperation) -> Reading operation.Value
  | read kind => Cursor.read kind.Value
  | readBytes count => Cursor.readBytes count.toNat
  | ensure needed => Cursor.ensure needed.toNat
  | seek target => fun cursor => (cursor.seek target.toNat).map (Prod.mk ())

def start (position : Nat) : CursorOperation -> Nat
  | seek target => target.toNat
  | _ => position

def needed : CursorOperation -> Nat
  | read kind => kind.width
  | readBytes count => count.toNat
  | ensure needed => needed.toNat
  | seek _ => 0

def stop (position : Nat) : CursorOperation -> Nat
  | read kind => position + kind.width
  | readBytes count => position + count.toNat
  | ensure _ => position
  | seek target => target.toNat

def Fits (length position : Nat) (operation : CursorOperation) : Prop :=
  operation.start position + operation.needed ≤ length

def overrun (length position : Nat) (operation : CursorOperation) : OutOfRange :=
  { position := operation.start position
    needed := operation.needed
    length := length }

/-- The operation returns what stands in `bytes` from `position` on. -/
def Yields (bytes : List UInt8) (position : Nat) :
    (operation : CursorOperation) -> operation.Value -> Prop
  | read kind, value =>
      kind.meaning value = kind.meaningOfBytes ((bytes.drop position).take kind.width)
  | readBytes count, value => value = (bytes.drop position).take count.toNat
  | ensure _, _ => True
  | seek _, _ => True

variable {cursor : Cursor} {operation : CursorOperation}

theorem stop_le_of_fits {length position : Nat} (hposition : position ≤ length)
    (h : operation.Fits length position) : operation.stop position ≤ length := by
  cases operation with
  | ensure needed => exact hposition
  | read kind => exact h
  | readBytes count => exact h
  | seek target => exact h

theorem exists_reading_eq_ok (h : operation.Fits cursor.buffer.size cursor.position) :
    exists value : operation.Value,
      operation.reading cursor =
          .ok (value, { cursor with position := operation.stop cursor.position }) ∧
        operation.Yields cursor.buffer.toList cursor.position value := by
  cases operation with
  | read kind =>
      have hfits : cursor.position + kind.width ≤ cursor.buffer.size := h
      refine ⟨_, Cursor.read_eq_ok_iff.mpr ⟨?_, rfl, ?_⟩, ?_⟩
      · rw [kind.width_value]
        exact hfits
      · rw [kind.width_value]
        rfl
      · rw [kind.width_value]
        apply kind.meaning_ofBytes
        rw [List.length_take, Cursor.length_unread, Cursor.remaining]
        omega
  | readBytes count => exact ⟨_, Cursor.readBytes_eq_ok_iff.mpr ⟨h, rfl, rfl⟩, rfl⟩
  | ensure needed => exact ⟨(), if_pos h, trivial⟩
  | seek target =>
      have hfits : target.toNat ≤ cursor.buffer.size := h
      refine ⟨(), ?_, trivial⟩
      simp only [reading, Cursor.seek, if_pos hfits, Except.map]
      rfl

theorem reading_eq_error (h : ¬ operation.Fits cursor.buffer.size cursor.position) :
    operation.reading cursor =
      .error (operation.overrun cursor.buffer.size cursor.position) := by
  cases operation with
  | read kind =>
      rw [reading, Cursor.read_eq_if, kind.width_value]
      exact if_neg h
  | readBytes count => exact if_neg h
  | ensure needed => exact if_neg h
  | seek target =>
      have hfits : ¬ target.toNat ≤ cursor.buffer.size := h
      simp only [reading, Cursor.seek, if_neg hfits, Except.map]
      rfl

end CursorOperation

/-!
# Histories
-/

/-- One operation, what it returns, and the cursors in front of it and behind it. -/
structure CursorEvent (γ : Type) where
  operation : CursorOperation
  before : γ
  outcome : Except OutOfRange operation.Value
  after : γ

namespace Cursor

/-- When an operation fails, the caller goes on with the cursor it has. -/
def perform (operation : CursorOperation) (cursor : Cursor) : CursorEvent Cursor :=
  match operation.reading cursor with
  | .ok (value, next) => ⟨operation, cursor, .ok value, next⟩
  | .error error => ⟨operation, cursor, .error error, cursor⟩

def history : List CursorOperation -> Cursor -> List (CursorEvent Cursor)
  | [], _ => []
  | operation :: rest, cursor =>
      cursor.perform operation :: history rest (cursor.perform operation).after

/-- The cursor stands in `bytes` or just behind them. -/
structure Inside (bytes : List UInt8) (cursor : Cursor) : Prop where
  toList_buffer : cursor.buffer.toList = bytes
  position_le : cursor.position ≤ bytes.length
  position_add_remaining : cursor.position + cursor.remaining = bytes.length
  atEnd_iff : cursor.atEnd = true <-> cursor.remaining = 0

end Cursor

/-- What an operation on a cursor in `bytes` has to do. -/
structure CursorEvent.Sound (bytes : List UInt8) (event : CursorEvent Cursor) : Prop where
  inside_before : event.before.Inside bytes
  inside_after : event.after.Inside bytes
  succeeds_iff : (exists value : event.operation.Value, event.outcome = .ok value) <->
    event.operation.Fits bytes.length event.before.position
  of_ok : forall value : event.operation.Value, event.outcome = .ok value ->
    event.operation.Yields bytes event.before.position value ∧
      event.after =
        { event.before with position := event.operation.stop event.before.position }
  of_error : forall error : OutOfRange, event.outcome = .error error ->
    error = event.operation.overrun bytes.length event.before.position ∧
      bytes.length < error.position + error.needed ∧
      event.after = event.before

namespace Cursor

variable {bytes : List UInt8} {cursor : Cursor}

theorem inside_of_position_le (hbuffer : cursor.buffer.toList = bytes)
    (hposition : cursor.position ≤ bytes.length) : cursor.Inside bytes where
  toList_buffer := hbuffer
  position_le := hposition
  position_add_remaining := by
    rw [← hbuffer, Array.length_toList] at hposition ⊢
    exact Nat.add_sub_cancel' hposition
  atEnd_iff := by
    rw [atEnd, decide_eq_true_iff, remaining, Nat.sub_eq_zero_iff_le]

theorem inside_ofBytes (bytes : List UInt8) : (ofBytes bytes).Inside bytes :=
  inside_of_position_le rfl (Nat.zero_le _)

theorem Inside.size_buffer (h : cursor.Inside bytes) : cursor.buffer.size = bytes.length := by
  rw [← h.toList_buffer, Array.length_toList]

theorem Inside.sound_perform (h : cursor.Inside bytes) (operation : CursorOperation) :
    (cursor.perform operation).Sound bytes := by
  unfold perform
  by_cases hfits : operation.Fits cursor.buffer.size cursor.position
  · rcases CursorOperation.exists_reading_eq_ok hfits with ⟨value, hreading, hyields⟩
    rw [hreading]
    rw [h.size_buffer] at hfits
    have hstop := CursorOperation.stop_le_of_fits h.position_le hfits
    constructor
    · exact h
    · exact inside_of_position_le h.toList_buffer hstop
    · exact iff_of_true ⟨value, rfl⟩ hfits
    · intro found hfound
      cases hfound
      exact ⟨h.toList_buffer ▸ hyields, rfl⟩
    · intro error herror
      cases herror
  · rw [CursorOperation.reading_eq_error hfits]
    rw [h.size_buffer] at hfits
    constructor
    · exact h
    · exact h
    · refine iff_of_false ?_ hfits
      rintro ⟨value, hvalue⟩
      cases hvalue
    · intro value hvalue
      cases hvalue
    · intro error herror
      cases herror
      rw [h.size_buffer]
      exact ⟨rfl, Nat.lt_of_not_le hfits, rfl⟩

theorem operation_perform (operation : CursorOperation) :
    (cursor.perform operation).operation = operation := by
  unfold perform
  split <;> rfl

theorem before_perform (operation : CursorOperation) :
    (cursor.perform operation).before = cursor := by
  unfold perform
  split <;> rfl

theorem map_operation_history (operations : List CursorOperation) :
    (cursor.history operations).map CursorEvent.operation = operations := by
  induction operations generalizing cursor with
  | nil => rfl
  | cons operation rest ih => rw [history, List.map_cons, operation_perform, ih]

theorem Inside.sound_history (h : cursor.Inside bytes) {operations : List CursorOperation}
    {event : CursorEvent Cursor} (hevent : event ∈ cursor.history operations) :
    event.Sound bytes := by
  induction operations generalizing cursor with
  | nil => cases hevent
  | cons operation rest ih =>
      have hsound := h.sound_perform operation
      rcases List.mem_cons.mp hevent with rfl | hrest
      · exact hsound
      · exact ih hsound.inside_after hrest

/-- A failed operation can be left out of a history. -/
theorem Inside.history_eraseIdx (h : cursor.Inside bytes) {operations : List CursorOperation}
    {index : Nat} {event : CursorEvent Cursor} {error : OutOfRange}
    (hevent : (cursor.history operations)[index]? = some event)
    (herror : event.outcome = .error error) :
    cursor.history (operations.eraseIdx index) = (cursor.history operations).eraseIdx index := by
  induction operations generalizing cursor index with
  | nil => rfl
  | cons operation rest ih =>
      have hsound := h.sound_perform operation
      cases index with
      | zero =>
          have hafter : (cursor.perform operation).after = cursor := by
            cases hevent
            rw [(hsound.of_error error herror).2.2, before_perform]
          rw [history, hafter]
          rfl
      | succ index =>
          rw [history, List.eraseIdx_cons_succ, List.eraseIdx_cons_succ, history,
            ih hsound.inside_after hevent]

end Cursor

end CilDisasm
