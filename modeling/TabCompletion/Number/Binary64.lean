/-!
# Double-precision numbers

`Binary64` holds the values of the 64-bit binary format as a sign and `mantissa · 2^exponent`.
All arithmetic is exact: reading a decimal or an integer forms a fraction and rounds it once, to
the nearest value, ties to the even mantissa.
-/

namespace TabCompletion

/-- A double-precision value. A finite one is `± mantissa · 2^exponent`, where `mantissa` is below
`2^53`, the exponent is at least `-1074`, and the mantissa is at least `2^52` unless the exponent
is `-1074`. -/
inductive Binary64 where
  | nan
  | infinite (negative : Bool)
  | finite (negative : Bool) (mantissa : Nat) (exponent : Int)
  deriving DecidableEq, Repr

namespace Binary64

def minExponent : Int := -1074

def maxExponent : Int := 971

/-- The weight of the leading binary digit of a mantissa, `2^52`. -/
def hiddenBit : Nat := 4503599627370496

/-- A quotient rounded to the nearest integer, a half to the even neighbour. -/
def roundQuotient (num den : Nat) : Nat :=
  let q := num / den
  let twice := 2 * (num % den)
  if den < twice || (twice == den && q % 2 == 1) then q + 1 else q

/-- `num / den` in units of `2^e`, as a fraction. -/
def inUnits (num den : Nat) (e : Int) : Nat × Nat :=
  (num * Nat.pow 2 (-e).toNat, den * Nat.pow 2 e.toNat)

/-- The exponent that leaves 53 binary digits before the point, but at least the least one. -/
def exponentFor (num den : Nat) : Int :=
  -- The difference of the logarithms may be one more than the logarithm of the quotient.
  let e : Int := Int.ofNat num.log2 - Int.ofNat den.log2 - 52
  let (a, b) := inUnits num den e
  max minExponent (if a / b < hiddenBit then e - 1 else e)

/-- The value nearest to `num / den`, with the given sign. -/
def ofFraction (negative : Bool) (num den : Nat) : Binary64 :=
  if num = 0 then finite negative 0 minExponent
  else
    let e := exponentFor num den
    let (a, b) := inUnits num den e
    let m := roundQuotient a b
    -- Rounding up may have given the mantissa one binary digit more.
    let (m, e) := if m = 2 * hiddenBit then (hiddenBit, e + 1) else (m, e)
    if maxExponent < e then infinite negative else finite negative m e

def ofInt (i : Int) : Binary64 := ofFraction (i < 0) i.natAbs 1

/-- The value nearest to `digits · 10^exponent`. -/
def ofDecimal (negative : Bool) (digits : Nat) (exponent : Int) : Binary64 :=
  let magnitude : Int := Int.ofNat (Nat.toDigits 10 digits).length + exponent
  -- What is far out of reach is settled without forming the power.
  if digits = 0 || magnitude < -340 then finite negative 0 minExponent
  else if 400 < magnitude then infinite negative
  else ofFraction negative (digits * Nat.pow 10 exponent.toNat) (Nat.pow 10 (-exponent).toNat)

/-! ### Order -/

/-- An integer that orders the values as numbers: the value in units of `2^-1074`, beyond all
finite values for an infinity. Not a number has none. -/
def orderKey? : Binary64 → Option Int
  | nan => none
  | infinite negative =>
    let magnitude : Int := Int.ofNat (Nat.pow 2 2100)
    some (if negative then -magnitude else magnitude)
  | finite negative m e =>
    let magnitude : Int := Int.ofNat (m * Nat.pow 2 (e - minExponent).toNat)
    some (if negative then -magnitude else magnitude)

/-- Whether one value is below another; never with a value that is not a number. -/
def below (a b : Binary64) : Bool :=
  match a.orderKey?, b.orderKey? with
  | some x, some y => x < y
  | _, _ => false

/-! ### Reading -/

def digitsValue (ds : List Char) : Nat :=
  ds.foldl (fun n d => 10 * n + (d.toNat - '0'.toNat)) 0

/-- Read `e` or `E` and a decimal exponent; the empty text is exponent zero. -/
def readExponent? : List Char → Option Int
  | [] => some 0
  | c :: cs =>
    if c == 'e' || c == 'E' then
      let (negative, ds) := match cs with
        | '-' :: ds => (true, ds)
        | '+' :: ds => (false, ds)
        | ds => (false, ds)
      if ds.isEmpty || !ds.all Char.isDigit then none
      else some (if negative then -Int.ofNat (digitsValue ds) else Int.ofNat (digitsValue ds))
    else none

def readMagnitude? (negative : Bool) (cs : List Char) : Option Binary64 :=
  let whole := cs.takeWhile Char.isDigit
  let rest := cs.dropWhile Char.isDigit
  let (fraction, rest) := match rest with
    | '.' :: r => (r.takeWhile Char.isDigit, r.dropWhile Char.isDigit)
    | r => ([], r)
  if whole.isEmpty && fraction.isEmpty then none
  else (readExponent? rest).map fun e =>
    ofDecimal negative (digitsValue (whole ++ fraction)) (e - Int.ofNat fraction.length)

/-- Read a number: an optional sign, then `inf`, `infinity` or `nan` in any case, or decimal
digits with an optional point and exponent. -/
def ofText? (s : String) : Option Binary64 :=
  let (negative, cs) := match s.toList with
    | '-' :: cs => (true, cs)
    | '+' :: cs => (false, cs)
    | cs => (false, cs)
  let name := String.ofList (cs.map Char.toLower)
  if name == "inf" || name == "infinity" then some (infinite negative)
  else if name == "nan" then some nan
  else readMagnitude? negative cs

end Binary64

end TabCompletion
