/-!
Spans of time in nanoseconds, and their text in the largest unit that keeps a whole part.
-/
namespace Federation

structure Duration where
  nanos : Nat
  deriving DecidableEq, Repr, Inhabited

namespace Duration

def ofMillis (ms : Nat) : Duration := ⟨ms * 1000000⟩

/-- The first whole millisecond by which the span has passed; clocks are read no finer. -/
def millisUp (d : Duration) : Nat := (d.nanos + 999999) / 1000000

/-- The digits of a fraction `part / 10^width` without trailing zeros. -/
def fractionDigits (part width : Nat) : List Char :=
  let ds := Nat.toDigits 10 part
  ((List.replicate (width - ds.length) '0' ++ ds).reverse.dropWhile (· = '0')).reverse

def inUnit (n width : Nat) (unit : String) : String :=
  let part := n % Nat.pow 10 width
  Nat.repr (n / Nat.pow 10 width)
    ++ (if part = 0 then "" else "." ++ String.ofList (fractionDigits part width)) ++ unit

def text (d : Duration) : String :=
  if 1000000000 ≤ d.nanos then inUnit d.nanos 9 "s"
  else if 1000000 ≤ d.nanos then inUnit d.nanos 6 "ms"
  else if 1000 ≤ d.nanos then inUnit d.nanos 3 "µs"
  else inUnit d.nanos 0 "ns"

end Duration
end Federation
