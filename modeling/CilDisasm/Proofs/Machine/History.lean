import CilDisasm.Proofs.Bytes.History
import CilDisasm.Proofs.Machine.Cursor

/-!
# Cursors that are changed in place

An action works on one cursor and changes it in place. It gives a value or an error, and the
cursor stays as the action leaves it, also where there is an error. There is no result when an
addition is not exact or when the bytes taken are not all in the buffer.
-/

namespace CilDisasm

open Machine (add?)

abbrev CursorAction (α : Type) : Type :=
  ExceptT OutOfRange (StateT MachineCursor Option) α

namespace CursorAction

variable {α : Type}

def runOn (cursor : MachineCursor) (action : CursorAction α) :
    Option (Except OutOfRange α × MachineCursor) :=
  StateT.run (ExceptT.run action) cursor

def exact (result : Option α) : CursorAction α :=
  ExceptT.lift (StateT.lift result)

def require (needed : UInt64) : CursorAction Unit := do
  let cursor ← get
  MonadExcept.ofExcept (cursor.ensure needed)

def takeBytes (count : UInt64) : CursorAction (List UInt8) := do
  require count
  let cursor ← get
  let stop ← exact (add? cursor.position count)
  let bytes ← exact (cursor.slice? cursor.position stop)
  set { cursor with position := stop }
  return bytes

def takeWord (kind : WordKind) : CursorAction kind.Value := do
  let bytes ← takeBytes (UInt64.ofNat (Word.width kind.Value))
  return Word.ofBytes kind.Value bytes

def moveTo (target : UInt64) : CursorAction Unit := do
  let cursor ← get
  if cursor.length < target then
    throw { position := target.toNat, needed := 0, length := cursor.length.toNat }
  set { cursor with position := target }

def ofOperation : (operation : CursorOperation) -> CursorAction operation.Value
  | .read kind => takeWord kind
  | .readBytes count => takeBytes count
  | .ensure needed => require needed
  | .seek target => moveTo target

@[simp] theorem runOn_pure (cursor : MachineCursor) (value : α) :
    (pure value : CursorAction α).runOn cursor = some (.ok value, cursor) :=
  rfl

@[simp] theorem runOn_get (cursor : MachineCursor) :
    (get : CursorAction MachineCursor).runOn cursor = some (.ok cursor, cursor) :=
  rfl

@[simp] theorem runOn_set (cursor next : MachineCursor) :
    (set next : CursorAction PUnit).runOn cursor = some (.ok ⟨⟩, next) :=
  rfl

@[simp] theorem runOn_throw (cursor : MachineCursor) (error : OutOfRange) :
    (throw error : CursorAction α).runOn cursor = some (.error error, cursor) :=
  rfl

@[simp] theorem runOn_exact (cursor : MachineCursor) (result : Option α) :
    (exact result).runOn cursor = result.map fun value => (.ok value, cursor) := by
  cases result <;> rfl

theorem runOn_bind {β : Type} (cursor : MachineCursor) (action : CursorAction α)
    (next : α -> CursorAction β) :
    (action >>= next).runOn cursor =
      (action.runOn cursor).bind fun
        | (.ok value, after) => (next value).runOn after
        | (.error error, after) => some (.error error, after) := by
  unfold runOn ExceptT.run StateT.run
  simp only [bind, ExceptT.bind, ExceptT.mk, StateT.bind]
  congr 1
  funext reply
  rcases reply with ⟨value | error, after⟩ <;> rfl

/-- What an action does that does what a reading of `cursor` does. -/
def reply (cursor : Cursor) : Except OutOfRange (α × Cursor) -> Except OutOfRange α × MachineCursor
  | .ok (value, next) => (.ok value, next.machine)
  | .error error => (.error error, cursor.machine)

theorem runOn_require {cursor : Cursor} (h : cursor.Countable) (needed : UInt64) :
    (require needed).runOn cursor.machine =
      some (reply cursor (Cursor.ensure needed.toNat cursor)) := by
  simp only [require, runOn_bind, runOn_get, Option.bind_some, h.ensure_machine, Cursor.ensure]
  split <;> rfl

theorem runOn_takeBytes {cursor : Cursor} (h : cursor.Countable) (count : UInt64) :
    (takeBytes count).runOn cursor.machine =
      some (reply cursor (Cursor.readBytes count.toNat cursor)) := by
  rw [takeBytes, runOn_bind, runOn_require h, Cursor.ensure, Cursor.readBytes]
  by_cases hfits : cursor.position + count.toNat ≤ cursor.buffer.size
  · have hslice := h.slice?_machine (Nat.le_add_right _ _) hfits
    simp only [if_pos hfits, reply, Option.bind_some, runOn_bind, runOn_get, runOn_exact,
      h.add?_position hfits, hslice, Option.map_some, runOn_set, runOn_pure]
    rw [Cursor.unread, Nat.add_sub_cancel_left, Array.toList_extract, List.extract_eq_take_drop,
      Nat.add_sub_cancel_left]
    rfl
  · simp only [if_neg hfits, reply, Option.bind_some]

theorem runOn_takeWord {cursor : Cursor} (h : cursor.Countable) (kind : WordKind) :
    (takeWord kind).runOn cursor.machine = some (reply cursor (Cursor.read kind.Value cursor)) := by
  have hwidth : (UInt64.ofNat (Word.width kind.Value)).toNat = Word.width kind.Value :=
    UInt64.toNat_ofNat_of_lt' (kind.width_value ▸ kind.width_lt)
  rw [takeWord, runOn_bind, runOn_takeBytes h, hwidth, Cursor.read]
  cases Cursor.readBytes (Word.width kind.Value) cursor <;> rfl

theorem runOn_moveTo {cursor : Cursor} (h : cursor.Countable) (target : UInt64) :
    (moveTo target).runOn cursor.machine =
      some (reply cursor ((cursor.seek target.toNat).map (Prod.mk ()))) := by
  have hlt : cursor.machine.length < target <-> ¬ target.toNat ≤ cursor.buffer.size := by
    rw [UInt64.lt_iff_toNat_lt, h.toNat_length_machine, Nat.not_le]
  rw [moveTo, runOn_bind, runOn_get, Cursor.seek]
  by_cases hfits : target.toNat ≤ cursor.buffer.size
  · simp only [Option.bind_some, if_neg (mt hlt.mp (not_not_intro hfits)), if_pos hfits]
    rw [runOn_set]
    simp only [reply, Except.map, Cursor.machine, UInt64.ofNat_toNat]
  · simp only [Option.bind_some, if_pos (hlt.mpr hfits), if_neg hfits]
    rw [runOn_bind, runOn_throw, h.toNat_length_machine]
    rfl

/-- Every operation in place does what the reading does. -/
theorem runOn_ofOperation {cursor : Cursor} (h : cursor.Countable)
    (operation : CursorOperation) :
    (ofOperation operation).runOn cursor.machine =
      some (reply cursor (operation.reading cursor)) := by
  cases operation with
  | read kind => exact runOn_takeWord h kind
  | readBytes count => exact runOn_takeBytes h count
  | ensure needed => exact runOn_require h needed
  | seek target => exact runOn_moveTo h target

end CursorAction

/-!
# Histories in place
-/

namespace MachineCursor

def ofBytes (bytes : List UInt8) : MachineCursor :=
  { buffer := bytes.toArray, position := 0 }

def perform (operation : CursorOperation) (cursor : MachineCursor) :
    Option (CursorEvent MachineCursor) :=
  ((CursorAction.ofOperation operation).runOn cursor).map fun reply =>
    ⟨operation, cursor, reply.1, reply.2⟩

def history : List CursorOperation -> MachineCursor -> Option (List (CursorEvent MachineCursor))
  | [], _ => some []
  | operation :: rest, cursor =>
      (cursor.perform operation).bind fun event =>
        (history rest event.after).map (List.cons event)

end MachineCursor

def CursorEvent.machine (event : CursorEvent Cursor) : CursorEvent MachineCursor :=
  ⟨event.operation, event.before.machine, event.outcome, event.after.machine⟩

namespace Cursor

variable {bytes : List UInt8} {cursor : Cursor}

theorem Countable.perform_machine (h : cursor.Countable) (operation : CursorOperation) :
    cursor.machine.perform operation = some (cursor.perform operation).machine := by
  rw [MachineCursor.perform, CursorAction.runOn_ofOperation h, perform]
  cases operation.reading cursor <;> rfl

theorem Inside.countable (h : cursor.Inside bytes) (hsize : bytes.length < UInt64.size) :
    cursor.Countable where
  position_le := h.size_buffer ▸ h.position_le
  size_lt := h.size_buffer ▸ hsize

theorem Inside.history_machine (h : cursor.Inside bytes) (hsize : bytes.length < UInt64.size)
    (operations : List CursorOperation) :
    cursor.machine.history operations =
      some ((cursor.history operations).map CursorEvent.machine) := by
  induction operations generalizing cursor with
  | nil => rfl
  | cons operation rest ih =>
      have hafter := (h.sound_perform operation).inside_after
      rw [MachineCursor.history, (h.countable hsize).perform_machine, Option.bind_some]
      show (MachineCursor.history rest (cursor.perform operation).after.machine).map _ = _
      rw [ih hafter]
      rfl

/-- No history of operations makes a cursor leave its buffer. Each of them succeeds exactly if
the bytes it asks for are there. It then returns them and moves behind them; otherwise it leaves
the cursor as it is, and what follows goes on as if it had not been there. Machine numbers and
changes in place make no difference to this, whatever the arguments are. -/
theorem history_safe (bytes : List UInt8) (hsize : bytes.length < UInt64.size)
    (operations : List CursorOperation) :
    (MachineCursor.ofBytes bytes).history operations =
        some (((ofBytes bytes).history operations).map CursorEvent.machine) ∧
      ((ofBytes bytes).history operations).map CursorEvent.operation = operations ∧
      (ofBytes bytes).Inside bytes ∧
      (forall event : CursorEvent Cursor,
        event ∈ (ofBytes bytes).history operations -> event.Sound bytes) ∧
      forall (index : Nat) (event : CursorEvent Cursor) (error : OutOfRange),
        ((ofBytes bytes).history operations)[index]? = some event ->
        event.outcome = .error error ->
        (ofBytes bytes).history (operations.eraseIdx index) =
          ((ofBytes bytes).history operations).eraseIdx index := by
  have hinside := inside_ofBytes bytes
  refine ⟨hinside.history_machine hsize operations, map_operation_history operations,
    hinside, ?_, ?_⟩
  · intro event hevent
    exact hinside.sound_history hevent
  · intro index event error hevent herror
    exact hinside.history_eraseIdx hevent herror

def excessiveOperations : List CursorOperation :=
  [.read .int16, .read .int32, .ensure 0xFFFFFFFFFFFFFFFF, .readBytes 0xFFFFFFFFFFFFFFFF,
    .seek 4, .read .uint8, .seek 3, .ensure 0]

theorem history_safe_of_excessiveOperations :
    [(0xFE : UInt8), 0xFF, 0x2A].length < UInt64.size ∧
      (MachineCursor.ofBytes [0xFE, 0xFF, 0x2A]).history excessiveOperations =
        some (((ofBytes [0xFE, 0xFF, 0x2A]).history excessiveOperations).map
          CursorEvent.machine) ∧
      ((ofBytes [0xFE, 0xFF, 0x2A]).history excessiveOperations).map
          (fun event => event.after.position) =
        [2, 2, 2, 2, 2, 3, 3, 3] := by
  have hsize : [(0xFE : UInt8), 0xFF, 0x2A].length < UInt64.size := by decide
  have hsafe := history_safe [0xFE, 0xFF, 0x2A] hsize excessiveOperations
  exact ⟨hsize, hsafe.1, by decide⟩

end Cursor

end CilDisasm
