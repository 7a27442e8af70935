import GlobalMap.Number.Rounding
/-!
Double-precision binary numbers, kept exactly as a sign, a mantissa and a power of two.

A quotient is rounded to the nearest number of 53 significant bits (`Binary64.ofQuotient`), and a
number is written with the fewest decimal digits that read back as it (`Binary64.shortest`).
-/
namespace GlobalMap.Number

/-- A double-precision number; a finite one is `mantissa * 2 ^ exponent`. -/
inductive Binary64 where
  | finite (negative : Bool) (mantissa : Nat) (exponent : Int)
  | infinite (negative : Bool)
  | nan
  deriving DecidableEq, Repr

namespace Binary64

/-- The exponent of the smallest step between numbers. -/
def leastExponent : Int := -1074

/-- The exponent of the largest step between numbers. -/
def greatestExponent : Int := 971

/-- `num / den` in steps of `2 ^ exponent`, rounded to the nearest step. -/
def steps (num den : Nat) (exponent : Int) : Nat :=
  if exponent < 0 then roundDiv (num * Nat.pow 2 (-exponent).toNat) den
  else roundDiv num (den * Nat.pow 2 exponent.toNat)

/-- The exponent that leaves 53 significant bits of `num / den`. -/
def exponentFor (num den : Nat) : Int :=
  let guess : Int := (num.log2 : Int) - den.log2
  let small :=
    if guess < 0 then num * Nat.pow 2 (-guess).toNat < den else num < den * Nat.pow 2 guess.toNat
  max leastExponent (guess - (if small then 53 else 52))

/-- The number nearest to `num / den`. -/
def ofQuotient (negative : Bool) (num den : Nat) : Binary64 :=
  if num = 0 then .finite negative 0 leastExponent
  else
    let exponent := exponentFor num den
    let mantissa := steps num den exponent
    let (mantissa, exponent) :=
      if mantissa = Nat.pow 2 53 then (Nat.pow 2 52, exponent + 1) else (mantissa, exponent)
    if greatestExponent < exponent then .infinite negative else .finite negative mantissa exponent

/-- The number nearest to `digits * 10 ^ scale`. Scales beyond every double are cut short, so that
no power larger than needed is computed. -/
def ofDecimal (negative : Bool) (digits : Nat) (scale : Int) : Binary64 :=
  let size : Int := (Nat.toDigits 10 digits).length
  if digits = 0 then .finite negative 0 leastExponent
  else if 400 < size + scale then .infinite negative
  else if size + scale < -400 then .finite negative 0 leastExponent
  else if scale < 0 then ofQuotient negative digits (Nat.pow 10 (-scale).toNat)
  else ofQuotient negative (digits * Nat.pow 10 scale.toNat) 1

/-- A finite number as a quotient. -/
def quotient (mantissa : Nat) (exponent : Int) : Nat × Nat :=
  if exponent < 0 then (mantissa, Nat.pow 2 (-exponent).toNat)
  else (mantissa * Nat.pow 2 exponent.toNat, 1)

/-- The power of ten of the first significant digit of `num / den`, searched from the number of
digits of a large value, or downwards for a small one. -/
def leadingPower (num den : Nat) : Int :=
  if den ≤ num then (Nat.toDigits 10 (num / den)).length - 1
  else
    match (List.range 400).find? fun k => den ≤ num * Nat.pow 10 (k + 1) with
    | some k => -(k + 1 : Int)
    | none => -400

/-- The decimal of `count` significant digits nearest to a number, if it reads back as the number:
its digits and the power of ten of the last one. -/
def withDigits? (mantissa : Nat) (exponent : Int) (count : Nat) : Option (Nat × Int) :=
  let (num, den) := quotient mantissa exponent
  let last := leadingPower num den - (count - 1 : Int)
  let (num', den') :=
    if last < 0 then (num * Nat.pow 10 (-last).toNat, den) else (num, den * Nat.pow 10 last.toNat)
  let below := num' / den'
  let candidates := if 2 * (num' % den') < den' then [below, below + 1] else [below + 1, below]
  (candidates.find? fun digits =>
    ofDecimal false digits last = .finite false mantissa exponent).map fun digits => (digits, last)

/-- The fewest digits that read back as the number, with the power of ten of the last digit. -/
def shortest (mantissa : Nat) (exponent : Int) : Nat × Int :=
  match (List.range 17).findSome? fun n => withDigits? mantissa exponent (n + 1) with
  | some decimal => decimal
  | none => (0, 0)

/-- Digits with a decimal point behind the first `point` of them. -/
def positional (digits : List Char) (point : Int) : List Char :=
  if point ≤ 0 then '0' :: '.' :: List.replicate (-point).toNat '0' ++ digits
  else if digits.length ≤ point then
    digits ++ List.replicate (point.toNat - digits.length) '0' ++ ['.', '0']
  else digits.take point.toNat ++ '.' :: digits.drop point.toNat

/-- Digits as one digit before the point, times a power of ten of at least two digits. -/
def scientific (digits : List Char) (point : Int) : List Char :=
  let power := point - 1
  let fraction := if digits.length ≤ 1 then [] else '.' :: digits.drop 1
  let sign := if power < 0 then '-' else '+'
  digits.take 1 ++ fraction ++ 'e' :: sign :: (padded 2 power.natAbs).toList

/-- The text of a finite number without its sign: from a ten-thousandth up to ten to the
sixteenth with a decimal point, beyond that with a power of ten. -/
def magnitude (mantissa : Nat) (exponent : Int) : List Char :=
  if mantissa = 0 then ['0', '.', '0']
  else
    let (value, last) := shortest mantissa exponent
    let written := Nat.toDigits 10 value
    let point := last + written.length
    let digits := (written.reverse.dropWhile (· = '0')).reverse
    if point ≤ -4 ∨ 16 < point then scientific digits point else positional digits point

/-- The text of a number. -/
def render : Binary64 → List Char
  | .finite negative mantissa exponent =>
    (if negative then ['-'] else []) ++ magnitude mantissa exponent
  | .infinite negative => (if negative then ['-'] else []) ++ "Infinity".toList
  | .nan => "NaN".toList

/-- A non-negative finite number with `places` digits behind the point. -/
def fixed (places : Nat) : Binary64 → String
  | .finite _ mantissa exponent =>
    let (num, den) := quotient mantissa exponent
    Number.fixed places num den
  | other => String.ofList other.render

end Binary64

end GlobalMap.Number
