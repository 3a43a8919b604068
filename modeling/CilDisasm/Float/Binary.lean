/-!
# Binary interchange floats

A float operand is kept as its bit pattern: a sign, an exponent field and a fraction
field. Nothing is lost on the way in, so the payload of a NaN survives. What the bits
mean is the `Datum`: a NaN, an infinity or `significand * 2 ^ exponent`.
-/

namespace CilDisasm

structure FloatFormat where
  fractionBits : Nat
  exponentBits : Nat
deriving DecidableEq, Repr

namespace FloatFormat

def binary32 : FloatFormat :=
  { fractionBits := 23, exponentBits := 8 }

def binary64 : FloatFormat :=
  { fractionBits := 52, exponentBits := 11 }

def fraction (format : FloatFormat) (bits : Nat) : Nat :=
  bits % Nat.pow 2 format.fractionBits

def exponentField (format : FloatFormat) (bits : Nat) : Nat :=
  bits / Nat.pow 2 format.fractionBits % Nat.pow 2 format.exponentBits

def signBit (format : FloatFormat) (bits : Nat) : Bool :=
  bits / Nat.pow 2 (format.fractionBits + format.exponentBits) % 2 = 1

/-- The exponent of the least significant bit of a number whose exponent field is one. -/
def leastExponent (format : FloatFormat) : Int :=
  2 - Nat.pow 2 (format.exponentBits - 1) - format.fractionBits

end FloatFormat

/-!
# The meaning of a bit pattern

`narrowBelow` marks a power of two that is not the least normal one: the gap to the next
smaller float is then half the gap to the next greater one.
-/

inductive Datum where
  | nan
  | infinite (negative : Bool)
  | finite (negative : Bool) (significand : Nat) (exponent : Int) (narrowBelow : Bool)
deriving DecidableEq, Repr

def FloatFormat.datum (format : FloatFormat) (bits : Nat) : Datum :=
  let fraction := format.fraction bits
  let field := format.exponentField bits
  let negative := format.signBit bits
  if field + 1 = Nat.pow 2 format.exponentBits then
    if fraction = 0 then .infinite negative else .nan
  else if field = 0 then
    .finite negative fraction format.leastExponent false
  else
    .finite negative (Nat.pow 2 format.fractionBits + fraction)
      (format.leastExponent + (field - 1 : Nat)) (fraction = 0 && field != 1)

/-!
# Comparison

Two floats compare as numbers do: a NaN differs from everything, itself included, and
the two zeros agree. All other values have one bit pattern each.
-/

namespace FloatFormat

def unsigned (format : FloatFormat) (bits : Nat) : Nat :=
  bits % Nat.pow 2 (format.fractionBits + format.exponentBits)

def isNaN (format : FloatFormat) (bits : Nat) : Bool :=
  format.datum bits = .nan

def isZero (format : FloatFormat) (bits : Nat) : Bool :=
  format.unsigned bits = 0

def agrees (format : FloatFormat) (bits others : Nat) : Bool :=
  (!format.isNaN bits && bits = others) || (format.isZero bits && format.isZero others)

end FloatFormat

/-!
# Single and double precision
-/

structure Binary32 where
  bits : UInt32
deriving DecidableEq, Repr, Inhabited

namespace Binary32

def datum (value : Binary32) : Datum :=
  FloatFormat.binary32.datum value.bits.toNat

def isNaN (value : Binary32) : Bool :=
  FloatFormat.binary32.isNaN value.bits.toNat

def agrees (left right : Binary32) : Bool :=
  FloatFormat.binary32.agrees left.bits.toNat right.bits.toNat

end Binary32

structure Binary64 where
  bits : UInt64
deriving DecidableEq, Repr, Inhabited

namespace Binary64

def datum (value : Binary64) : Datum :=
  FloatFormat.binary64.datum value.bits.toNat

def isNaN (value : Binary64) : Bool :=
  FloatFormat.binary64.isNaN value.bits.toNat

def agrees (left right : Binary64) : Bool :=
  FloatFormat.binary64.agrees left.bits.toNat right.bits.toNat

end Binary64

end CilDisasm
