import CilDisasm.Decoding.Body
import CilDisasm.Proofs.Bytes.Overrun
import CilDisasm.Proofs.Machine.Arithmetic

/-!
# Cursors with machine numbers

The position of such a cursor is a number of 64 bits, and every step adds to it. A reading
has no result when an addition is not exact or when it reaches outside of the buffer. On a
buffer that offsets of 32 bits can address this never happens, and readings are those of the
cursors whose position is any number.
-/

namespace CilDisasm

open Machine (add? cast? exactly?_eq_some_iff)

structure MachineCursor where
  buffer : Array UInt8
  position : UInt64

abbrev MachineReading (α : Type) : Type :=
  MachineCursor -> Option (Except OutOfRange (α × MachineCursor))

namespace MachineCursor

def length (cursor : MachineCursor) : UInt64 :=
  UInt64.ofNat cursor.buffer.size

def remaining (cursor : MachineCursor) : Nat :=
  cursor.buffer.size - cursor.position.toNat

def atEnd (cursor : MachineCursor) : Bool :=
  cursor.length ≤ cursor.position

def outOfRange (cursor : MachineCursor) (needed : UInt64) : OutOfRange :=
  { position := cursor.position.toNat
    needed := needed.toNat
    length := cursor.length.toNat }

/-- An end that is no machine number is out of range, like every end behind the buffer. -/
def ensure (needed : UInt64) (cursor : MachineCursor) : Except OutOfRange Unit :=
  match add? cursor.position needed with
  | some stop =>
      if stop ≤ cursor.length then .ok () else .error (cursor.outOfRange needed)
  | none => .error (cursor.outOfRange needed)

def slice? (start stop : UInt64) (cursor : MachineCursor) : Option (List UInt8) :=
  if start ≤ stop ∧ stop ≤ cursor.length then
    some (cursor.buffer.extract start.toNat stop.toNat).toList
  else
    none

def read (α : Type) [Word α] : MachineReading α :=
  fun cursor =>
    let width := UInt64.ofNat (Word.width α)
    match cursor.ensure width with
    | .error error => some (.error error)
    | .ok _ =>
        (add? cursor.position width).bind fun stop =>
          (cursor.slice? cursor.position stop).map fun bytes =>
            .ok (Word.ofBytes α bytes, { cursor with position := stop })

def readPlaces (base : Int64) : (count : Nat) -> Array Int64 -> MachineReading (Array Int64)
  | 0, places, cursor => some (.ok (places, cursor))
  | count + 1, places, cursor =>
      (cursor.read Int32).bind fun
        | .error error => some (.error error)
        | .ok (distance, next) =>
            (add? base distance.toInt64).bind fun place =>
              readPlaces base count (places.push place) next

/-!
# Readings move forward
-/

structure Follows (cursor next : MachineCursor) : Prop where
  buffer_eq : next.buffer = cursor.buffer
  position_le : cursor.position.toNat ≤ next.position.toNat

variable {cursor next last : MachineCursor}

theorem Follows.refl (cursor : MachineCursor) : Follows cursor cursor :=
  ⟨rfl, Nat.le_refl _⟩

theorem Follows.trans (h : Follows cursor next) (h' : Follows next last) :
    Follows cursor last :=
  ⟨h'.buffer_eq.trans h.buffer_eq, Nat.le_trans h.position_le h'.position_le⟩

theorem toNat_of_add?_eq_some {left right sum : UInt64} (h : add? left right = some sum) :
    sum.toNat = left.toNat + right.toNat := by
  rcases exactly?_eq_some_iff.mp h with ⟨rfl, hnumber⟩
  exact Int.ofNat_inj.mp hnumber

theorem position_of_read {α : Type} [Word α] {value : α}
    (h : cursor.read α = some (.ok (value, next))) :
    next.buffer = cursor.buffer ∧
      next.position.toNat =
        cursor.position.toNat + (UInt64.ofNat (Word.width α)).toNat := by
  unfold read at h
  simp only at h
  split at h
  · cases h
  · rcases Option.bind_eq_some_iff.mp h with ⟨stop, hstop, hslice⟩
    rcases Option.map_eq_some_iff.mp hslice with ⟨bytes, -, hreply⟩
    cases hreply
    exact ⟨rfl, toNat_of_add?_eq_some hstop⟩

theorem follows_of_read {α : Type} [Word α] {value : α}
    (h : cursor.read α = some (.ok (value, next))) : Follows cursor next := by
  rcases position_of_read h with ⟨hbuffer, hposition⟩
  exact ⟨hbuffer, hposition ▸ Nat.le_add_right _ _⟩

theorem follows_of_readPlaces {base : Int64} {count : Nat} {places result : Array Int64}
    (h : readPlaces base count places cursor = some (.ok (result, next))) :
    Follows cursor next := by
  induction count generalizing places cursor with
  | zero =>
      cases h
      exact Follows.refl _
  | succ count ih =>
      rcases Option.bind_eq_some_iff.mp h with ⟨reply, hread, hrest⟩
      rcases reply with error | ⟨distance, middle⟩
      · cases hrest
      · rcases Option.bind_eq_some_iff.mp hrest with ⟨place, -, hplaces⟩
        exact (follows_of_read hread).trans (ih hplaces)

end MachineCursor

/-!
# Cursors whose positions are machine numbers
-/

namespace Cursor

def machine (cursor : Cursor) : MachineCursor :=
  { buffer := cursor.buffer, position := UInt64.ofNat cursor.position }

/-- The places of the buffer are machine numbers, and the cursor stands at one of them. -/
structure Countable (cursor : Cursor) : Prop where
  position_le : cursor.position ≤ cursor.buffer.size
  size_lt : cursor.buffer.size < UInt64.size

variable {cursor next : Cursor}

theorem ofNat_le_ofNat_iff {m n : Nat} (hm : m < UInt64.size) (hn : n < UInt64.size) :
    UInt64.ofNat m ≤ UInt64.ofNat n <-> m ≤ n := by
  rw [UInt64.le_iff_toNat_le, UInt64.toNat_ofNat_of_lt' hm, UInt64.toNat_ofNat_of_lt' hn]

namespace Countable

theorem position_lt (h : cursor.Countable) : cursor.position < UInt64.size :=
  Nat.lt_of_le_of_lt h.position_le h.size_lt

theorem toNat_position_machine (h : cursor.Countable) :
    cursor.machine.position.toNat = cursor.position :=
  UInt64.toNat_ofNat_of_lt' h.position_lt

theorem toNat_length_machine (h : cursor.Countable) :
    cursor.machine.length.toNat = cursor.buffer.size :=
  UInt64.toNat_ofNat_of_lt' h.size_lt

theorem atEnd_machine (h : cursor.Countable) : cursor.machine.atEnd = cursor.atEnd :=
  decide_eq_decide.mpr (ofNat_le_ofNat_iff h.size_lt h.position_lt)

theorem outOfRange_machine (h : cursor.Countable) (needed : UInt64) :
    cursor.machine.outOfRange needed = cursor.outOfRange needed.toNat := by
  rw [MachineCursor.outOfRange, h.toNat_position_machine, h.toNat_length_machine]
  rfl

theorem add?_position (h : cursor.Countable) {needed : UInt64}
    (hfits : cursor.position + needed.toNat ≤ cursor.buffer.size) :
    add? cursor.machine.position needed =
      some (UInt64.ofNat (cursor.position + needed.toNat)) := by
  have hadd := Machine.add?_ofNat_uint64 (Nat.lt_of_le_of_lt hfits h.size_lt)
  rw [UInt64.ofNat_toNat] at hadd
  exact hadd

/-- An end that the machine cannot compute is behind the buffer anyway. -/
theorem ensure_machine (h : cursor.Countable) (needed : UInt64) :
    cursor.machine.ensure needed = (ensure needed.toNat cursor).map (fun _ => ()) := by
  rw [MachineCursor.ensure, ensure, h.outOfRange_machine]
  by_cases hfits : cursor.position + needed.toNat ≤ cursor.buffer.size
  · have hstop : UInt64.ofNat (cursor.position + needed.toNat) ≤ cursor.machine.length :=
      (ofNat_le_ofNat_iff (Nat.lt_of_le_of_lt hfits h.size_lt) h.size_lt).mpr hfits
    rw [h.add?_position hfits, if_pos hfits]
    exact if_pos hstop
  · rw [if_neg hfits]
    cases hadd : add? cursor.machine.position needed with
    | none => rfl
    | some stop =>
        have hstop : ¬ stop ≤ cursor.machine.length := by
          rw [UInt64.le_iff_toNat_le, MachineCursor.toNat_of_add?_eq_some hadd,
            h.toNat_position_machine, h.toNat_length_machine]
          exact hfits
        exact if_neg hstop

theorem slice?_machine (h : cursor.Countable) {stop : Nat}
    (hle : cursor.position ≤ stop) (hstop : stop ≤ cursor.buffer.size) :
    cursor.machine.slice? cursor.machine.position (UInt64.ofNat stop) =
      some (cursor.unread.take (stop - cursor.position)) := by
  have hlt := Nat.lt_of_le_of_lt hstop h.size_lt
  have hinside : cursor.machine.position ≤ UInt64.ofNat stop ∧
      UInt64.ofNat stop ≤ cursor.machine.length :=
    ⟨(ofNat_le_ofNat_iff h.position_lt hlt).mpr hle, (ofNat_le_ofNat_iff hlt h.size_lt).mpr hstop⟩
  rw [MachineCursor.slice?, if_pos hinside, h.toNat_position_machine,
    UInt64.toNat_ofNat_of_lt' hlt, Array.toList_extract, List.extract_eq_take_drop]
  rfl

end Countable

/-!
# Cursors that can be addressed
-/

structure Addressable (cursor : Cursor) : Prop where
  position_le : cursor.position ≤ cursor.buffer.size
  size_lt : cursor.buffer.size < codeLengthLimit

theorem Addressable.of_follows (h : cursor.Addressable) (hfollows : Follows cursor next) :
    next.Addressable :=
  ⟨hfollows.position_le_size h.position_le, hfollows.buffer_eq ▸ h.size_lt⟩

theorem Addressable.position_lt (h : cursor.Addressable) :
    cursor.position < codeLengthLimit :=
  Nat.lt_of_le_of_lt h.position_le h.size_lt

theorem lt_size_of_lt {n : Nat} (h : n < codeLengthLimit) : n < UInt64.size :=
  Nat.lt_trans h (by decide)

theorem Addressable.countable (h : cursor.Addressable) : cursor.Countable :=
  ⟨h.position_le, lt_size_of_lt h.size_lt⟩

theorem atEnd_machine (h : cursor.Addressable) : cursor.machine.atEnd = cursor.atEnd :=
  h.countable.atEnd_machine

theorem add?_position (h : cursor.Addressable) {needed : Nat}
    (hneeded : needed < 0x8000000000000000) :
    add? cursor.machine.position (UInt64.ofNat needed) =
      some (UInt64.ofNat (cursor.position + needed)) := by
  apply Machine.add?_ofNat_uint64
  have hposition : cursor.position < 0x8000000000000000 :=
    Nat.lt_trans h.position_lt (by decide)
  exact Nat.add_lt_add hposition hneeded

theorem ensure_machine (h : cursor.Addressable) {needed : Nat}
    (hneeded : needed < 0x8000000000000000) :
    cursor.machine.ensure (UInt64.ofNat needed) =
      (ensure needed cursor).map (fun _ => ()) := by
  rw [h.countable.ensure_machine, UInt64.toNat_ofNat_of_lt' (Nat.lt_trans hneeded (by decide))]

theorem read_machine {α : Type} [Word α] (h : cursor.Addressable)
    (hwidth : Word.width α < 0x8000000000000000) :
    cursor.machine.read α =
      some ((read α cursor).map (fun reply => (reply.1, reply.2.machine))) := by
  rw [MachineCursor.read, read_eq_if]
  simp only [ensure_machine h hwidth, ensure]
  by_cases hfits : cursor.position + Word.width α ≤ cursor.buffer.size
  · rw [if_pos hfits, if_pos hfits, add?_position h hwidth]
    simp only [Except.map, Option.bind_some,
      h.countable.slice?_machine (Nat.le_add_right _ _) hfits, Option.map_some,
      Nat.add_sub_cancel_left]
    rfl
  · rw [if_neg hfits, if_neg hfits]
    rfl

def placeOf (limit : Nat) (distance : Int32) : Int64 :=
  Int64.ofInt (limit + distance.toInt)

theorem add?_placeOf {limit : Nat} (hlimit : limit < codeLengthLimit) (distance : Int32) :
    add? (Int64.ofInt limit) distance.toInt64 = some (placeOf limit distance) := by
  rw [← Int64.ofInt_int32ToInt]
  exact (Machine.isDistance_int32 distance).add?_place hlimit

theorem readPlaces_machine (h : cursor.Addressable) {limit : Nat}
    (hlimit : limit < codeLengthLimit) (count : Nat) (distances : Array Int32) :
    MachineCursor.readPlaces (Int64.ofInt limit) count (distances.map (placeOf limit))
        cursor.machine =
      some ((readMany Int32 count distances cursor).map (fun reply =>
        (reply.1.map (placeOf limit), reply.2.machine))) := by
  induction count generalizing distances cursor with
  | zero => rfl
  | succ count ih =>
      rw [MachineCursor.readPlaces, readMany, read_machine h (by decide)]
      cases hread : read Int32 cursor with
      | error error => rfl
      | ok reply =>
          rcases reply with ⟨distance, next⟩
          simp only [Except.map, Option.bind_some, add?_placeOf hlimit]
          rw [← Array.map_push]
          exact ih (h.of_follows (follows_of_read hread)) _

end Cursor

end CilDisasm
