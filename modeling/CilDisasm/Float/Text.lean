import CilDisasm.Float.Shortest

/-!
# The text of a float

A finite float is written with the digits of its shortest decimal, always positionally:
never with an exponent, and without a point when the decimal is whole. Both zeros are
written `0` after their sign. A NaN has no sign.
-/

namespace CilDisasm
namespace Decimal

def positional (decimal : Decimal) : List Char :=
  let digits := Nat.toDigits 10 decimal.coefficient
  let places := (-decimal.exponent).toNat
  if places = 0 then
    digits ++ List.replicate decimal.exponent.toNat '0'
  else if places < digits.length then
    digits.take (digits.length - places) ++ '.' :: digits.drop (digits.length - places)
  else
    '0' :: '.' :: (List.replicate (places - digits.length) '0' ++ digits)

end Decimal

namespace Datum

def signText (negative : Bool) : String :=
  if negative then "-" else ""

def text : Datum -> String
  | nan => "NaN"
  | infinite negative => signText negative ++ "inf"
  | finite negative significand exponent narrowBelow =>
      if significand = 0 then
        signText negative ++ "0"
      else
        let interval := RoundingInterval.of significand exponent narrowBelow
        signText negative ++ String.ofList interval.shortest.positional

end Datum

def Binary32.text (value : Binary32) : String :=
  value.datum.text

def Binary64.text (value : Binary64) : String :=
  value.datum.text

end CilDisasm
