import CilDisasm.Bytes.Cursor

/-!
# Consumption

A reading that succeeds consumes the bytes that the value it gives is written with, and
nothing else decides whether it succeeds. Consumption is a relation between two cursors and
the bytes between them, so readings one after the other consume the bytes one behind the
other.
-/

namespace CilDisasm
namespace Cursor

/-- The cursor moves over `bytes` and then stands at `next`, still inside the buffer. -/
structure Consumes (cursor : Cursor) (bytes : List UInt8) (next : Cursor) : Prop where
  buffer_eq : next.buffer = cursor.buffer
  position_eq : next.position = cursor.position + bytes.length
  unread_eq : cursor.unread = bytes ++ next.unread
  position_le : next.position ≤ next.buffer.size

namespace Consumes

variable {cursor next last : Cursor} {bytes more : List UInt8}

theorem nil (h : cursor.position ≤ cursor.buffer.size) : cursor.Consumes [] cursor :=
  ⟨rfl, rfl, rfl, h⟩

theorem eq_of_nil (h : cursor.Consumes [] next) : next = cursor := by
  rcases cursor with ⟨buffer, position⟩
  rcases next with ⟨nextBuffer, nextPosition⟩
  have hbuffer : nextBuffer = buffer := h.buffer_eq
  have hposition : nextPosition = position := h.position_eq
  rw [hbuffer, hposition]

theorem append (h : cursor.Consumes bytes next) (h' : next.Consumes more last) :
    cursor.Consumes (bytes ++ more) last where
  buffer_eq := h'.buffer_eq.trans h.buffer_eq
  position_eq := by
    rw [h'.position_eq, h.position_eq, List.length_append, Nat.add_assoc]
  unread_eq := by
    rw [h.unread_eq, h'.unread_eq, List.append_assoc]
  position_le := h'.position_le

theorem position_le_size (h : cursor.Consumes bytes next) :
    cursor.position ≤ cursor.buffer.size := by
  have hle := h.position_le
  rw [h.buffer_eq, h.position_eq] at hle
  exact Nat.le_trans (Nat.le_add_right _ _) hle

end Consumes

theorem consumes_of_unread {cursor : Cursor} {bytes rest : List UInt8}
    (hposition : cursor.position ≤ cursor.buffer.size)
    (hunread : cursor.unread = bytes ++ rest) :
    cursor.Consumes bytes { cursor with position := cursor.position + bytes.length } where
  buffer_eq := rfl
  position_eq := rfl
  unread_eq := by
    have hdrop : cursor.unread.drop bytes.length = rest := by
      rw [hunread, List.drop_left]
    rw [hunread, ← hdrop]
    simp [unread]
  position_le := by
    have hlength := congrArg List.length hunread
    rw [length_unread, List.length_append, remaining] at hlength
    simp only
    omega

/-- A way that passes over two parts stops between them. -/
theorem consumes_append_iff {cursor last : Cursor} {bytes more : List UInt8} :
    cursor.Consumes (bytes ++ more) last <->
      exists next : Cursor, cursor.Consumes bytes next ∧ next.Consumes more last := by
  constructor
  · intro h
    have hunread : cursor.unread = bytes ++ (more ++ last.unread) := by
      rw [h.unread_eq, List.append_assoc]
    have hfirst := consumes_of_unread h.position_le_size hunread
    refine ⟨_, hfirst, ?_⟩
    constructor
    · exact h.buffer_eq
    · rw [h.position_eq, List.length_append, Nat.add_assoc]
    · exact List.append_cancel_left (hfirst.unread_eq.symm.trans hunread)
    · exact h.position_le
  · intro h
    rcases h with ⟨next, hfirst, hsecond⟩
    exact hfirst.append hsecond

theorem unread_eq_nil_iff {cursor : Cursor} : cursor.unread = [] <-> cursor.atEnd = true := by
  simp [unread, atEnd]

/-!
# Readings as consumption
-/

theorem read_eq_ok_iff_consumes {α : Type} [Word α] {cursor next : Cursor} {value : α} :
    read α cursor = .ok (value, next) <-> cursor.Consumes (Word.toBytes value) next := by
  rw [read_eq_ok_iff]
  constructor
  · intro h
    rcases h with ⟨hle, hvalue, hnext⟩
    have htake : (cursor.unread.take (Word.width α)).length = Word.width α := by
      rw [List.length_take, length_unread, remaining]
      omega
    have hbytes : Word.toBytes value = cursor.unread.take (Word.width α) := by
      rw [← hvalue, Word.toBytes_ofBytes _ htake]
    have hunread : cursor.unread =
        Word.toBytes value ++ cursor.unread.drop (Word.width α) := by
      rw [hbytes, List.take_append_drop]
    have hconsumes := consumes_of_unread (by omega) hunread
    rw [Word.length_toBytes, hnext] at hconsumes
    exact hconsumes
  · intro h
    have hposition := h.position_eq
    rw [Word.length_toBytes] at hposition
    refine ⟨?_, ?_, ?_⟩
    · rw [← hposition, ← h.buffer_eq]
      exact h.position_le
    · rw [h.unread_eq, List.take_left' (Word.length_toBytes value), Word.ofBytes_toBytes]
    · rw [← hposition, ← h.buffer_eq]

theorem readMany_eq_ok_iff_consumes {α : Type} [Word α] {count : Nat}
    {values result : Array α} {cursor next : Cursor}
    (hposition : cursor.position ≤ cursor.buffer.size) :
    readMany α count values cursor = .ok (result, next) <->
      exists entries : List α,
        entries.length = count ∧ result.toList = values.toList ++ entries ∧
          cursor.Consumes (entries.flatMap Word.toBytes) next := by
  induction count generalizing values cursor with
  | zero =>
      simp only [readMany, Except.ok.injEq, Prod.mk.injEq]
      constructor
      · intro h
        rcases h with ⟨rfl, rfl⟩
        exact ⟨[], rfl, by simp, Consumes.nil hposition⟩
      · intro h
        rcases h with ⟨entries, hlength, hresult, hconsumes⟩
        rw [List.eq_nil_of_length_eq_zero hlength] at hresult hconsumes
        rw [List.append_nil] at hresult
        exact ⟨(Array.toList_inj.mp hresult).symm, hconsumes.eq_of_nil.symm⟩
  | succ count ih =>
      unfold readMany
      constructor
      · intro h
        split at h
        · next value middle hread =>
            have hfirst := read_eq_ok_iff_consumes.mp hread
            rcases (ih hfirst.position_le).mp h with
              ⟨entries, hlength, hresult, hrest⟩
            refine ⟨value :: entries, ?_, ?_, ?_⟩
            · rw [List.length_cons, hlength]
            · rw [hresult, Array.toList_push, List.append_assoc]
              rfl
            · exact hfirst.append hrest
        · cases h
      · intro h
        rcases h with ⟨entries, hlength, hresult, hconsumes⟩
        cases entries with
        | nil => cases hlength
        | cons value rest =>
            rcases consumes_append_iff.mp hconsumes with ⟨middle, hfirst, hrest⟩
            rw [read_eq_ok_iff_consumes.mpr hfirst]
            apply (ih hfirst.position_le).mpr
            refine ⟨rest, Nat.succ.inj hlength, ?_, hrest⟩
            rw [hresult, Array.toList_push, List.append_assoc]
            rfl

theorem ensure_eq_ok_of_consumes {cursor next : Cursor} {bytes : List UInt8}
    (h : cursor.Consumes bytes next) : ensure bytes.length cursor = .ok ((), cursor) := by
  have hle := h.position_le
  rw [h.position_eq, h.buffer_eq] at hle
  exact if_pos hle

end Cursor

theorem Word.length_flatMap_toBytes {α : Type} [Word α] (values : List α) :
    (values.flatMap Word.toBytes).length = Word.width α * values.length := by
  induction values with
  | nil => rfl
  | cons value rest ih =>
      rw [List.flatMap_cons, List.length_append, Word.length_toBytes, ih, List.length_cons,
        Nat.mul_succ, Nat.add_comm]

end CilDisasm
