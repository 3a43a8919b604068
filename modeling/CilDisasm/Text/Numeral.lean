/-!
# Numerals

Numbers appear in listings and messages either in decimal, which core prints, or in
lower-case hexadecimal filled with zeros up to a least width. A number that needs more
digits than the width keeps all of them.
-/

namespace CilDisasm
namespace Numeral

def zeroFilled (width : Nat) (digits : List Char) : List Char :=
  List.replicate (width - digits.length) '0' ++ digits

def hexDigits (width : Nat) (number : Nat) : List Char :=
  zeroFilled width (Nat.toDigits 16 number)

def hex (width : Nat) (number : Nat) : String :=
  String.ofList (hexDigits width number)

/-- Hexadecimal with the `0x` mark; the mark does not count towards the width. -/
def markedHex (width : Nat) (number : Nat) : String :=
  "0x" ++ hex width number

theorem length_zeroFilled (width : Nat) (digits : List Char) :
    (zeroFilled width digits).length = max width digits.length := by
  simp [zeroFilled]
  omega

theorem toList_hex (width number : Nat) :
    (hex width number).toList = hexDigits width number := by
  simp [hex]

end Numeral

end CilDisasm
