import TabCompletion.Number.Binary64

/-!
# Decimal text of a double-precision number

A whole number is written with all its digits and `.0`. Any other finite number is written with
the fewest decimal digits that read back as it, the nearest such decimal, and of two equally near
the greater; always positionally, without an exponent.
-/

namespace TabCompletion.Binary64

/-- The reals that round to a finite value, in units of a quarter of its last binary place: the
value itself, the ends of the interval, and whether the ends belong to it. -/
structure Rounding where
  value : Nat
  low : Nat
  high : Nat
  closed : Bool

/-- The interval of reals that round to `m · 2^e`. -/
def Rounding.of (m : Nat) (e : Int) : Rounding :=
  -- Below a power of two the next value is only half as far away.
  let low := if m = hiddenBit && minExponent < e then 4 * m - 1 else 4 * m - 2
  ⟨4 * m, low, 4 * m + 2, m % 2 == 0⟩

/-- The multiple of `10^k` with the given factor, chosen among the two around the value that round
to it; none if neither does. -/
def Rounding.onGrid (r : Rounding) (e k : Int) : Option Nat :=
  let a := Nat.pow 2 (e - 2).toNat * Nat.pow 10 (-k).toNat
  let b := Nat.pow 2 (2 - e).toNat * Nat.pow 10 k.toNat
  let c := r.value * a / b
  let belowHits := if r.closed then r.low * a ≤ c * b else r.low * a < c * b
  let aboveHits := if r.closed then (c + 1) * b ≤ r.high * a else (c + 1) * b < r.high * a
  let aboveNearer := (c + 1) * b - r.value * a ≤ r.value * a - c * b
  if aboveHits && (!belowHits || aboveNearer) then some (c + 1)
  else if belowHits then some c
  else none

/-- The number of decimal digits before the point of `m · 2^e`; zero or less counts the zeros
that follow the point. -/
def decimalPlace (m : Nat) (e : Int) : Int :=
  let num := m * Nat.pow 2 e.toNat
  let den := Nat.pow 2 (-e).toNat
  if den ≤ num then Int.ofNat (Nat.toDigits 10 (num / den)).length
  else
    match (List.range 400).find? fun j => den ≤ num * Nat.pow 10 (j + 1) with
    | some j => -Int.ofNat j
    | none => -400

/-- The shortest decimal that reads back as `m · 2^e`, as an integer and a power of ten. -/
def shortest (m : Nat) (e : Int) : Nat × Int :=
  let r := Rounding.of m e
  let place := decimalPlace m e
  -- Any value is told from its neighbours by seventeen digits.
  let hit := (List.range 17).findSome? fun i =>
    let k := place - Int.ofNat (i + 1)
    (r.onGrid e k).map fun c => (c, k)
  hit.getD (0, 0)

/-- Write `digits · 10^-places` with a point, without needless zeros at the end. -/
def positional (digits places : Nat) : List Char :=
  let ds := Nat.toDigits 10 digits
  let padded := List.replicate (places + 1 - ds.length) '0' ++ ds
  let whole := padded.take (padded.length - places)
  let fraction := padded.drop (padded.length - places)
  whole ++ '.' :: (fraction.reverse.dropWhile (· == '0')).reverse

def isWhole (m : Nat) (e : Int) : Bool := m % Nat.pow 2 (-e).toNat == 0

def text : Binary64 → String
  | nan => "NaN"
  | infinite negative => if negative then "-inf" else "inf"
  | finite negative m e =>
    let sign := if negative then "-" else ""
    if isWhole m e then sign ++ toString (m * Nat.pow 2 e.toNat / Nat.pow 2 (-e).toNat) ++ ".0"
    else
      let (digits, k) := shortest m e
      sign ++ String.ofList (positional digits (-k).toNat)

end TabCompletion.Binary64
