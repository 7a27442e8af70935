/-!
Quotients rounded to the nearest natural number, a half going to the even neighbour, and their
decimal text with a fixed number of places.
-/
namespace GlobalMap.Number

/-- The natural number nearest to `num / den`; of two, the even one. -/
def roundDiv (num den : Nat) : Nat :=
  let below := num / den
  let rest := num % den
  if 2 * rest < den then below
  else if den < 2 * rest then below + 1
  else if below % 2 = 0 then below
  else below + 1

/-- The decimal digits of `n`, with at least `width` of them. -/
def padded (width n : Nat) : String :=
  let digits := Nat.toDigits 10 n
  String.ofList (List.replicate (width - digits.length) '0' ++ digits)

/-- `num / den` with `places` digits behind the point. -/
def fixed (places num den : Nat) : String :=
  let scaled := roundDiv (num * Nat.pow 10 places) den
  toString (scaled / Nat.pow 10 places) ++ "." ++ padded places (scaled % Nat.pow 10 places)

end GlobalMap.Number
