/-!
# Machine arithmetic

Machine numbers have 32 or 64 bits. An operation on them may wrap around, cut bits off or stop
at the greatest number, and what comes out is then not the number that is meant. Here every
operation knows the number that is meant, and it has a result only if the machine computes
this number.
-/

namespace CilDisasm

class MachineNumber (α : Type) where
  number : α -> Int

instance : MachineNumber UInt32 where
  number value := value.toNat

instance : MachineNumber UInt64 where
  number value := value.toNat

instance : MachineNumber Int64 where
  number := Int64.toInt

namespace Machine

open MachineNumber (number)

section Operations

variable {α β : Type} [MachineNumber α] [MachineNumber β]

/-- What the machine computes, if it is the number that is meant. -/
def exactly? (computed : α) (meant : Int) : Option α :=
  if number computed = meant then some computed else none

def add? [Add α] (left right : α) : Option α :=
  exactly? (left + right) (number left + number right)

def mul? [Mul α] (left right : α) : Option α :=
  exactly? (left * right) (number left * number right)

def cast? (convert : α -> β) (value : α) : Option β :=
  exactly? (convert value) (number value)

theorem exactly?_eq_some_iff {computed result : α} {meant : Int} :
    exactly? computed meant = some result <-> computed = result ∧ number computed = meant := by
  unfold exactly?
  split
  · next h => simp [h]
  · next h => simp [h]

end Operations

/-- The product, or the greatest number if there is no room for it. -/
def saturatingMul (left right : UInt64) : UInt64 :=
  if left.toNat * right.toNat < UInt64.size then left * right
  else UInt64.ofNat (UInt64.size - 1)

def saturatingMul? (left right : UInt64) : Option UInt64 :=
  exactly? (saturatingMul left right) (number left * number right)

/-!
# Operations that have a result
-/

theorem number_ofNat_uint64 {n : Nat} (h : n < UInt64.size) : number (UInt64.ofNat n) = n :=
  congrArg Nat.cast (UInt64.toNat_ofNat_of_lt' h)

theorem number_ofNat_uint32 {n : Nat} (h : n < UInt32.size) : number (UInt32.ofNat n) = n :=
  congrArg Nat.cast (UInt32.toNat_ofNat_of_lt' h)

theorem number_ofInt {n : Int} (hle : -0x8000000000000000 ≤ n) (hlt : n < 0x8000000000000000) :
    number (Int64.ofInt n) = n :=
  Int64.toInt_ofInt_of_le hle hlt

theorem add?_ofNat_uint64 {m n : Nat} (h : m + n < UInt64.size) :
    add? (UInt64.ofNat m) (UInt64.ofNat n) = some (UInt64.ofNat (m + n)) := by
  have hm : m < UInt64.size := Nat.lt_of_le_of_lt (Nat.le_add_right m n) h
  have hn : n < UInt64.size := Nat.lt_of_le_of_lt (Nat.le_add_left n m) h
  refine exactly?_eq_some_iff.mpr ⟨(UInt64.ofNat_add m n).symm, ?_⟩
  rw [← UInt64.ofNat_add, number_ofNat_uint64 h, number_ofNat_uint64 hm,
    number_ofNat_uint64 hn, Int.natCast_add]

theorem add?_ofNat_uint32 {m n : Nat} (h : m + n < UInt32.size) :
    add? (UInt32.ofNat m) (UInt32.ofNat n) = some (UInt32.ofNat (m + n)) := by
  have hm : m < UInt32.size := Nat.lt_of_le_of_lt (Nat.le_add_right m n) h
  have hn : n < UInt32.size := Nat.lt_of_le_of_lt (Nat.le_add_left n m) h
  refine exactly?_eq_some_iff.mpr ⟨(UInt32.ofNat_add m n).symm, ?_⟩
  rw [← UInt32.ofNat_add, number_ofNat_uint32 h, number_ofNat_uint32 hm,
    number_ofNat_uint32 hn, Int.natCast_add]

example : add? (0xFFFFFFFF : UInt32) 1 = none := by
  decide

theorem mul?_ofNat_uint32 {m n : Nat} (hm : m < UInt32.size) (hn : n < UInt32.size)
    (h : m * n < UInt32.size) :
    mul? (UInt32.ofNat m) (UInt32.ofNat n) = some (UInt32.ofNat (m * n)) := by
  refine exactly?_eq_some_iff.mpr ⟨(UInt32.ofNat_mul m n).symm, ?_⟩
  rw [← UInt32.ofNat_mul, number_ofNat_uint32 h, number_ofNat_uint32 hm,
    number_ofNat_uint32 hn, Int.natCast_mul]

theorem saturatingMul?_ofNat {m n : Nat} (hm : m < UInt64.size) (hn : n < UInt64.size)
    (h : m * n < UInt64.size) :
    saturatingMul? (UInt64.ofNat m) (UInt64.ofNat n) = some (UInt64.ofNat (m * n)) := by
  have hproduct : saturatingMul (UInt64.ofNat m) (UInt64.ofNat n) = UInt64.ofNat (m * n) := by
    rw [saturatingMul, UInt64.toNat_ofNat_of_lt' hm, UInt64.toNat_ofNat_of_lt' hn, if_pos h,
      ← UInt64.ofNat_mul]
  refine exactly?_eq_some_iff.mpr ⟨hproduct, ?_⟩
  rw [hproduct, number_ofNat_uint64 h, number_ofNat_uint64 hm, number_ofNat_uint64 hn,
    Int.natCast_mul]

example : saturatingMul? 0x4000000000000000 4 = none := by
  decide

theorem cast?_toUInt32_ofNat {n : Nat} (h : n < UInt32.size) :
    cast? UInt64.toUInt32 (UInt64.ofNat n) = some (UInt32.ofNat n) := by
  refine exactly?_eq_some_iff.mpr ⟨UInt64.toUInt32_ofNat' n, ?_⟩
  rw [UInt64.toUInt32_ofNat', number_ofNat_uint32 h,
    number_ofNat_uint64 (Nat.lt_trans h (by decide))]

theorem cast?_toInt64_ofNat {n : Nat} (h : n < 0x8000000000000000) :
    cast? UInt64.toInt64 (UInt64.ofNat n) = some (Int64.ofInt n) := by
  have hcast : (UInt64.ofNat n).toInt64 = Int64.ofInt n :=
    Int64.ofInt_eq_ofNat.symm
  refine exactly?_eq_some_iff.mpr ⟨hcast, ?_⟩
  rw [hcast, number_ofInt (by omega) (by omega),
    number_ofNat_uint64 (Nat.lt_trans h (by decide))]

/-!
# Distances

A distance has a sign and 32 bits. Where it leads to from a place of 32 bits is a number that
64 bits can hold.
-/

def IsDistance (n : Int) : Prop :=
  -0x80000000 ≤ n ∧ n < 0x80000000

theorem isDistance_int32 (distance : Int32) : IsDistance distance.toInt :=
  ⟨distance.le_toInt, distance.toInt_lt⟩

theorem isDistance_int8 (distance : Int8) : IsDistance distance.toInt :=
  ⟨Int.le_trans (by decide) distance.le_toInt,
    Int.lt_of_lt_of_le distance.toInt_lt (by decide)⟩

namespace IsDistance

variable {distance : Int} {limit : Nat}

theorem number_place (h : IsDistance distance) (hlimit : limit < UInt32.size) :
    number (Int64.ofInt (limit + distance)) = limit + distance := by
  rcases h with ⟨hle, hlt⟩
  have hlimitInt : (limit : Int) < 0x100000000 := Int.ofNat_lt.mpr hlimit
  exact number_ofInt (by omega) (by omega)

theorem add?_place (h : IsDistance distance) (hlimit : limit < UInt32.size) :
    add? (Int64.ofInt limit) (Int64.ofInt distance) =
      some (Int64.ofInt (limit + distance)) := by
  have hstart : number (Int64.ofInt limit) = limit := by
    have hzero : IsDistance 0 := by
      constructor <;> decide
    have hplace := hzero.number_place hlimit
    rw [Int.add_zero] at hplace
    exact hplace
  have hdistance : number (Int64.ofInt distance) = distance := by
    have hplace := h.number_place (by decide : 0 < UInt32.size)
    rw [Int.ofNat_zero, Int.zero_add] at hplace
    exact hplace
  refine exactly?_eq_some_iff.mpr ⟨(Int64.ofInt_add limit distance).symm, ?_⟩
  rw [← Int64.ofInt_add, h.number_place hlimit, hstart, hdistance]

end IsDistance

end Machine

end CilDisasm
