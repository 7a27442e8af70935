/-!
Hexadecimal text of numbers: lower case, with `0x` in front and the sign behind it, so that minus
five reads `0x-5`.
-/
namespace GlobalMap.Text

/-- The hexadecimal digits of a number, lower case, without leading zeros. -/
def hexDigits (n : Nat) : String :=
  String.ofList (Nat.toDigits 16 n)

/-- The hexadecimal digits of a number, filled up with zeros to `width` places. -/
def hexPadded (width n : Nat) : String :=
  let digits := Nat.toDigits 16 n
  String.ofList (List.replicate (width - digits.length) '0' ++ digits)

/-- An offset as it is written in messages. -/
def hex (n : Int) : String :=
  if n < 0 then "0x-" ++ hexDigits n.natAbs else "0x" ++ hexDigits n.natAbs

end GlobalMap.Text
