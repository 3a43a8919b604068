import CilDisasm.Float.Binary

/-!
# Little-endian words

A number below `256 ^ width` is written as `width` bytes, the least significant first.
The types that occupy a fixed number of bytes in a method body are collected in the
class `Word`: each is a numbering of its values by the numbers below `256 ^ width`.
Reading what was written gives the value back, and writing what was read gives the
bytes back.
-/

namespace CilDisasm
namespace LittleEndian

def bytes : (width : Nat) -> (number : Nat) -> List UInt8
  | 0, _ => []
  | width + 1, number => UInt8.ofNat number :: bytes width (number / 256)

def number : List UInt8 -> Nat
  | [] => 0
  | byte :: rest => byte.toNat + 256 * number rest

/-- The numbers that `width` bytes can hold are those below `256 ^ width`. -/
def capacity : (width : Nat) -> Nat
  | 0 => 1
  | width + 1 => 256 * capacity width

@[simp] theorem length_bytes (width n : Nat) : (bytes width n).length = width := by
  induction width generalizing n with
  | zero => rfl
  | succ width ih => simp [bytes, ih]

theorem number_lt (bs : List UInt8) : number bs < capacity bs.length := by
  induction bs with
  | nil => exact Nat.zero_lt_one
  | cons byte rest ih =>
      have hbyte : byte.toNat < 256 := byte.toNat_lt
      simp only [number, List.length_cons, capacity]
      omega

theorem number_bytes (width n : Nat) (h : n < capacity width) :
    number (bytes width n) = n := by
  induction width generalizing n with
  | zero =>
      simp [capacity] at h
      simp [bytes, number, h]
  | succ width ih =>
      have hdiv : n / 256 < capacity width := by
        rw [capacity] at h
        omega
      simp only [bytes, number, ih _ hdiv, UInt8.toNat_ofNat']
      omega

theorem bytes_number (bs : List UInt8) : bytes bs.length (number bs) = bs := by
  induction bs with
  | nil => rfl
  | cons byte rest ih =>
      have hbyte : byte.toNat < 256 := byte.toNat_lt
      have hdiv : (byte.toNat + 256 * number rest) / 256 = number rest := by omega
      have hmod : UInt8.ofNat (byte.toNat + 256 * number rest) = byte := by
        apply UInt8.toNat_inj.mp
        simp only [UInt8.toNat_ofNat']
        omega
      simp only [List.length_cons, number, bytes, hdiv, hmod, ih]

end LittleEndian

/-!
# Fixed-width types

Signed integers are numbered by two's complement and floats by their bit pattern.
-/

class Word (α : Type) where
  width : Nat
  toNumber : α -> Nat
  ofNumber : Nat -> α
  toNumber_lt : forall value, toNumber value < LittleEndian.capacity width
  ofNumber_toNumber : forall value, ofNumber (toNumber value) = value
  toNumber_ofNumber : forall n, n < LittleEndian.capacity width -> toNumber (ofNumber n) = n

namespace Word

variable {α : Type} [Word α]

def toBytes (value : α) : List UInt8 :=
  LittleEndian.bytes (width α) (toNumber value)

def ofBytes (α : Type) [Word α] (bs : List UInt8) : α :=
  ofNumber (LittleEndian.number bs)

@[simp] theorem length_toBytes (value : α) : (toBytes value).length = width α := by
  simp [toBytes]

@[simp] theorem ofBytes_toBytes (value : α) : ofBytes α (toBytes value) = value := by
  rw [ofBytes, toBytes, LittleEndian.number_bytes _ _ (toNumber_lt value),
    ofNumber_toNumber]

theorem toBytes_ofBytes (bs : List UInt8) (h : bs.length = width α) :
    toBytes (ofBytes α bs) = bs := by
  have hlt : LittleEndian.number bs < LittleEndian.capacity (width α) := h ▸ LittleEndian.number_lt bs
  rw [toBytes, ofBytes, toNumber_ofNumber _ hlt, ← h, LittleEndian.bytes_number]

end Word

instance : Word UInt8 where
  width := 1
  toNumber := UInt8.toNat
  ofNumber := UInt8.ofNat
  toNumber_lt value := value.toNat_lt
  ofNumber_toNumber value := by simp
  toNumber_ofNumber n h := by simpa [LittleEndian.capacity] using h

instance : Word UInt16 where
  width := 2
  toNumber := UInt16.toNat
  ofNumber := UInt16.ofNat
  toNumber_lt value := value.toNat_lt
  ofNumber_toNumber value := by simp
  toNumber_ofNumber n h := by simpa [LittleEndian.capacity] using h

instance : Word UInt32 where
  width := 4
  toNumber := UInt32.toNat
  ofNumber := UInt32.ofNat
  toNumber_lt value := value.toNat_lt
  ofNumber_toNumber value := by simp
  toNumber_ofNumber n h := by simpa [LittleEndian.capacity] using h

instance : Word Int8 where
  width := 1
  toNumber value := value.toUInt8.toNat
  ofNumber n := (UInt8.ofNat n).toInt8
  toNumber_lt value := value.toUInt8.toNat_lt
  ofNumber_toNumber value := by simp
  toNumber_ofNumber n h := by simpa [LittleEndian.capacity] using h

instance : Word Int16 where
  width := 2
  toNumber value := value.toUInt16.toNat
  ofNumber n := (UInt16.ofNat n).toInt16
  toNumber_lt value := value.toUInt16.toNat_lt
  ofNumber_toNumber value := by simp
  toNumber_ofNumber n h := by simpa [LittleEndian.capacity] using h

instance : Word Int32 where
  width := 4
  toNumber value := value.toUInt32.toNat
  ofNumber n := (UInt32.ofNat n).toInt32
  toNumber_lt value := value.toUInt32.toNat_lt
  ofNumber_toNumber value := by simp
  toNumber_ofNumber n h := by simpa [LittleEndian.capacity] using h

instance : Word Int64 where
  width := 8
  toNumber value := value.toUInt64.toNat
  ofNumber n := (UInt64.ofNat n).toInt64
  toNumber_lt value := value.toUInt64.toNat_lt
  ofNumber_toNumber value := by simp
  toNumber_ofNumber n h := by simpa [LittleEndian.capacity] using h

instance : Word Binary32 where
  width := 4
  toNumber value := value.bits.toNat
  ofNumber n := { bits := UInt32.ofNat n }
  toNumber_lt value := value.bits.toNat_lt
  ofNumber_toNumber value := by simp
  toNumber_ofNumber n h := by simpa [LittleEndian.capacity] using h

instance : Word Binary64 where
  width := 8
  toNumber value := value.bits.toNat
  ofNumber n := { bits := UInt64.ofNat n }
  toNumber_lt value := value.bits.toNat_lt
  ofNumber_toNumber value := by simp
  toNumber_ofNumber n h := by simpa [LittleEndian.capacity] using h

end CilDisasm
