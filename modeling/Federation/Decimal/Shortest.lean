/-!
The shortest decimal that reads back as a given binary64.

A finite binary64 is `m * 2^q`. The reals that round to it form an interval around it, whose ends
belong to it exactly when `m` is even. On the grid of multiples of `10^k` only the two neighbours of
the value need a look, so the first `k`, going down, with a neighbour inside gives the fewest
digits.
-/
namespace Federation

/-- The number `digits * 10^exponent`. -/
structure Decimal where
  digits : Nat
  exponent : Int
  deriving DecidableEq, Repr, Inhabited

/-- A positive number `num / den` with the interval `[low / den, high / den]` of its roundings. -/
structure Rounding where
  num : Nat
  den : Nat
  low : Nat
  high : Nat
  closed : Bool

namespace Rounding

/-- The roundings to `m * 2^q`; below a power of two the gap is half as wide when `narrow`. -/
def ofBinary (m : Nat) (q : Int) (narrow : Bool) : Rounding :=
  let up := Nat.pow 2 (q - 2).toNat
  { num := 4 * m * up
    den := Nat.pow 2 (2 - q).toNat
    low := (4 * m - if narrow then 1 else 2) * up
    high := (4 * m + 2) * up
    closed := m % 2 == 0 }

/-- Is `d * 10^k` in the interval? -/
def holds (r : Rounding) (d : Nat) (k : Int) : Bool :=
  let x := d * Nat.pow 10 k.toNat * r.den
  let scale := Nat.pow 10 (-k).toNat
  if r.closed then r.low * scale ≤ x && x ≤ r.high * scale
  else r.low * scale < x && x < r.high * scale

/-- The better of the two neighbours on the grid of `10^k`, the even one on a tie. -/
def neighbour? (r : Rounding) (k : Int) : Option Nat :=
  let top := r.num * Nat.pow 10 (-k).toNat
  let bottom := r.den * Nat.pow 10 k.toNat
  let d := top / bottom
  match r.holds d k, r.holds (d + 1) k with
  | true, false => some d
  | false, true => some (d + 1)
  | false, false => none
  | true, true =>
    let twice := 2 * (top % bottom)
    if twice < bottom || (twice == bottom && d % 2 == 0) then some d else some (d + 1)

/-- The first hit on the grids `10^k`, `10^(k-1)`, … -/
def search (r : Rounding) : Nat → Int → Decimal
  | 0, k => ⟨0, k⟩
  | fuel + 1, k =>
    match r.neighbour? k with
    | some d => ⟨d, k⟩
    | none => search r fuel (k - 1)

def digitCount (n : Nat) : Nat := (Nat.toDigits 10 n).length

/-- Seventeen digits always suffice, and the first grid tried lies above the value. -/
def shortest (r : Rounding) : Decimal :=
  r.search 24 ((digitCount r.num : Int) - digitCount r.den + 1)

end Rounding

namespace Binary64

def negative (bits : UInt64) : Bool := 0x8000000000000000 ≤ bits.toNat

def exponentBits (bits : UInt64) : Nat := bits.toNat / 0x10000000000000 % 0x800

def fraction (bits : UInt64) : Nat := bits.toNat % 0x10000000000000

/-- The magnitude as `m * 2^q`. -/
def significand (bits : UInt64) : Nat :=
  if exponentBits bits = 0 then fraction bits else fraction bits + 0x10000000000000

def scale (bits : UInt64) : Int := (max (exponentBits bits) 1 : Nat) - 1075

/-- The shortest decimal of the magnitude. -/
def shortest (bits : UInt64) : Decimal :=
  if significand bits = 0 then ⟨0, 0⟩
  else (Rounding.ofBinary (significand bits) (scale bits)
    (fraction bits = 0 && 1 < exponentBits bits)).shortest

end Binary64

namespace Decimal

/-- How numbers are written: positional while the leading digit has weight `10^-5` to `10^15`,
always with a digit after the point; otherwise with a signed exponent. -/
def text (d : Decimal) : String :=
  let ds := String.ofList (Nat.toDigits 10 d.digits)
  let zeros (n : Nat) := String.ofList (List.replicate n '0')
  let lead : Int := (ds.length : Int) - 1 + d.exponent
  if d.digits = 0 then "0.0"
  else if -5 ≤ lead ∧ lead ≤ 15 then
    if 0 ≤ d.exponent then ds ++ zeros d.exponent.toNat ++ ".0"
    else if 0 ≤ lead then
      (ds.take (lead.toNat + 1)).copy ++ "." ++ (ds.drop (lead.toNat + 1)).copy
    else "0." ++ zeros (-lead - 1).toNat ++ ds
  else
    (ds.take 1).copy ++ (if ds.length = 1 then "" else "." ++ (ds.drop 1).copy)
      ++ (if lead < 0 then "e-" else "e+") ++ Nat.repr lead.natAbs

example : text ⟨25, -8⟩ = "2.5e-7" := by cbv
example : text ⟨1, 16⟩ = "1e+16" := by cbv
example : text ⟨1, -5⟩ = "0.00001" := by cbv

end Decimal

/-- The text of a finite binary64. -/
def Binary64.text (bits : UInt64) : String :=
  (if negative bits then "-" else "") ++ (shortest bits).text

end Federation
