import CilDisasm.Proofs.Bytes.Consumption
import CilDisasm.Proofs.Bytes.Relocation

/-!
# Reads that run over the end

A reading fails in one way only: some read in it ends behind the buffer. The error names
where that read starts, which is at the cursor or behind it, and never behind the end. A row
of words whose room has been checked is read to its end.
-/

namespace CilDisasm
namespace Cursor

/-- The error of a read that starts at the cursor or behind it and runs over the end. -/
structure Overruns (cursor : Cursor) (error : OutOfRange) : Prop where
  length_eq : error.length = cursor.buffer.size
  position_le : cursor.position ≤ error.position
  position_le_size : error.position ≤ cursor.buffer.size
  size_lt : cursor.buffer.size < error.position + error.needed

variable {cursor next : Cursor} {error : OutOfRange}

theorem overruns_outOfRange {needed : Nat} (hposition : cursor.position ≤ cursor.buffer.size)
    (h : ¬ cursor.position + needed ≤ cursor.buffer.size) :
    cursor.Overruns (cursor.outOfRange needed) where
  length_eq := rfl
  position_le := Nat.le_refl _
  position_le_size := hposition
  size_lt := Nat.lt_of_not_le h

theorem Overruns.of_consumes {bytes : List UInt8} (hconsumes : cursor.Consumes bytes next)
    (h : next.Overruns error) : cursor.Overruns error where
  length_eq := by rw [h.length_eq, hconsumes.buffer_eq]
  position_le := by
    have hle := h.position_le
    rw [hconsumes.position_eq] at hle
    exact Nat.le_trans (Nat.le_add_right _ _) hle
  position_le_size := hconsumes.buffer_eq ▸ h.position_le_size
  size_lt := hconsumes.buffer_eq ▸ h.size_lt

theorem position_lt_of_consumes {bytes : List UInt8} (hbytes : 0 < bytes.length)
    (hconsumes : cursor.Consumes bytes next) (h : next.Overruns error) :
    cursor.position < error.position := by
  have hle := h.position_le
  rw [hconsumes.position_eq] at hle
  omega

theorem overruns_of_read {α : Type} [Word α] (hposition : cursor.position ≤ cursor.buffer.size)
    (h : read α cursor = .error error) : cursor.Overruns error := by
  rw [read_eq_if] at h
  split at h
  · cases h
  · next hfits =>
      cases h
      exact overruns_outOfRange hposition hfits

theorem overruns_of_ensure {needed : Nat} (hposition : cursor.position ≤ cursor.buffer.size)
    (h : ensure needed cursor = .error error) : cursor.Overruns error := by
  unfold ensure at h
  split at h
  · cases h
  · next hfits =>
      cases h
      exact overruns_outOfRange hposition hfits

theorem position_add_le_of_ensure {needed : Nat} {reply : Unit × Cursor}
    (h : ensure needed cursor = .ok reply) :
    cursor.position + needed ≤ cursor.buffer.size := by
  unfold ensure at h
  split at h
  · next hfits => exact hfits
  · cases h

theorem exists_readMany_eq_ok {α : Type} [Word α] {count : Nat} (values : Array α)
    (h : cursor.position + Word.width α * count ≤ cursor.buffer.size) :
    exists result : Array α, exists last : Cursor,
      readMany α count values cursor = .ok (result, last) := by
  induction count generalizing values cursor with
  | zero => exact ⟨values, cursor, rfl⟩
  | succ count ih =>
      rw [Nat.mul_succ] at h
      have hfirst : cursor.position + Word.width α ≤ cursor.buffer.size := by
        omega
      have hrest : (cursor.position + Word.width α) + Word.width α * count ≤
          cursor.buffer.size := by
        omega
      unfold readMany
      rw [read_eq_if, if_pos hfirst]
      exact ih _ hrest

end Cursor

end CilDisasm
