import GlobalMap.Number.Binary64
/-!
Spans of time in nanoseconds, as they are written.
-/
namespace GlobalMap.Elapsed

/-- The number of nanoseconds of a second. -/
def perSecond : Nat := 1000000000

/-- A span in seconds, with a number of decimal places. -/
def seconds (places span : Nat) : String :=
  Number.fixed places span perSecond

/-- What a count is for each second of a span; nothing for no time at all. The quotient is a
binary64 number before it is written. -/
def rate (count span : Nat) : String :=
  if span = 0 then Number.fixed 1 0 1
  else (Number.Binary64.ofQuotient false (count * perSecond) span).fixed 1

end GlobalMap.Elapsed
