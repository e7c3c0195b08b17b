/-! # Numerals — hexadecimal, binary and padded decimal text

    Every number the library prints goes through one of these.  The width is the
    least number of digits: a shorter number is filled up with zeros, a longer
    one is printed whole. -/

namespace Armv4t

/-- The digits of a number in a base, filled up with zeros to a width. -/
def paddedDigits (base width n : Nat) : List Char :=
  let digits := Nat.toDigits base n
  List.replicate (width - digits.length) '0' ++ digits

/-- Hexadecimal with capital letters, at least `width` digits. -/
def hex (width : Nat) (n : Nat) : String :=
  String.ofList ((paddedDigits 16 width n).map Char.toUpper)

/-- Hexadecimal with small letters, at least `width` digits. -/
def hexSmall (width : Nat) (n : Nat) : String :=
  String.ofList (paddedDigits 16 width n)

/-- Binary, at least `width` digits. -/
def binary (width : Nat) (n : Nat) : String :=
  String.ofList (paddedDigits 2 width n)

/-- A word as eight capital hexadecimal digits behind `0x`. -/
def addressText (w : UInt32) : String := "0x" ++ hex 8 w.toNat

/-- A word as eight small hexadecimal digits behind `0x`. -/
def addressTextSmall (w : UInt32) : String := "0x" ++ hexSmall 8 w.toNat

/-- Text filled up with blanks on the right to a width. -/
def padRight (width : Nat) (s : String) : String :=
  s ++ String.ofList (List.replicate (width - s.length) ' ')

end Armv4t
