/-!
How long a whole number may be in decimal.

To turn a number into decimal digits, or digits into a number, takes work that grows with the square
of their count. A number with too many digits is therefore neither written in decimal nor read from
it: the attempt fails.
-/
namespace GlobalMap.Number

/-- The most digits that a whole number may have in decimal. -/
def maxDigits : Nat := 4300

/-- A whole number has too many digits to be written, or to be read. -/
structure Overlong where
  /-- The number of digits, where they have been counted. -/
  digits : Option Nat := none
  deriving DecidableEq, Repr

/-- The words for a number that has too many digits. -/
def Overlong.message (o : Overlong) : String :=
  let counted := match o.digits with
    | none => ""
    | some count => s!": value has {count} digits"
  s!"Exceeds the limit ({maxDigits} digits) for integer string conversion{counted}; " ++
    "use sys.set_int_max_str_digits() to increase the limit"

/-- The first whole number that has more digits than these. -/
def firstBeyond (digits : Nat) : Nat :=
  Nat.pow 10 digits

/-- Whether a whole number has too many digits to be written. -/
def isOverlong (n : Int) : Bool :=
  firstBeyond maxDigits ≤ n.natAbs

end GlobalMap.Number
