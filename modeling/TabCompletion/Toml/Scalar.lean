import TabCompletion.Toml.Moment

/-!
# Numbers, truth values, dates and times

`scalar?` reads a value that stands without quotes. Digits of a number may be grouped by single
underscores between them.
-/

namespace TabCompletion.Toml

/-- The digits of a group, if underscores stand only between digits. -/
def ungrouped? (isDigit : Char → Bool) : List Char → Option (List Char)
  | [] => none
  | [c] => if isDigit c then some [c] else none
  | c :: '_' :: d :: cs =>
    if isDigit c then (ungrouped? isDigit (d :: cs)).map (c :: ·) else none
  | c :: d :: cs =>
    if isDigit c then (ungrouped? isDigit (d :: cs)).map (c :: ·) else none

def digitValue (c : Char) : Nat :=
  if c.isDigit then c.toNat - '0'.toNat
  else if 'a' ≤ c then c.toNat - 'a'.toNat + 10
  else c.toNat - 'A'.toNat + 10

def isDigitOf (base : Nat) (c : Char) : Bool :=
  (c.isDigit || ('a' ≤ c && c ≤ 'f') || ('A' ≤ c && c ≤ 'F')) && digitValue c < base

def natural? (base : Nat) (cs : List Char) : Option Nat :=
  (ungrouped? (isDigitOf base) cs).map fun ds =>
    ds.foldl (fun n d => base * n + digitValue d) 0

def hasLeadingZero (cs : List Char) : Bool :=
  match cs with
  | '0' :: _ :: _ => true
  | _ => false

/-- Whether an integer is small enough to be read at all: at least `-2^127` and below `2^128`. -/
def inRange (i : Int) : Bool :=
  -170141183460469231731687303715884105728 ≤ i && i < 340282366920938463463374607431768211456

def decimal? (negative : Bool) (cs : List Char) : Option Toml :=
  if hasLeadingZero cs then none
  else
    match natural? 10 cs with
    | none => none
    | some n =>
      let i : Int := if negative then -Int.ofNat n else Int.ofNat n
      if inRange i then some (.integer i) else none

/-- Whether a character belongs to a floating-point number but not to an integer. -/
def marksFloat (c : Char) : Bool := c == '.' || c == 'e' || c == 'E'

/-- The digits of an exponent, with the sign kept. -/
def exponent? (cs : List Char) : Option (List Char) :=
  match cs with
  | '+' :: ds => (ungrouped? Char.isDigit ds).map ('+' :: ·)
  | '-' :: ds => (ungrouped? Char.isDigit ds).map ('-' :: ·)
  | ds => ungrouped? Char.isDigit ds

def beginsExponent (c : Char) : Bool := c == 'e' || c == 'E'

/-- The text of a floating-point number without its sign and without underscores. -/
def floatDigits? (cs : List Char) : Option (List Char) := do
  let whole := cs.takeWhile fun c => !marksFloat c
  let rest := cs.dropWhile fun c => !marksFloat c
  if hasLeadingZero whole then none
  let whole ← ungrouped? Char.isDigit whole
  let (fraction, rest) ← match rest with
    | '.' :: rest =>
      let digits := rest.takeWhile fun c => !beginsExponent c
      (ungrouped? Char.isDigit digits).map fun ds =>
        ('.' :: ds, rest.dropWhile fun c => !beginsExponent c)
    | rest => some ([], rest)
  match rest with
  | [] => some (whole ++ fraction)
  | _ :: ds => (exponent? ds).map fun e => whole ++ fraction ++ 'e' :: e

def float? (negative : Bool) (cs : List Char) : Option Toml := do
  let ds ← floatDigits? cs
  match Binary64.readMagnitude? negative ds with
  | some (.finite s m e) => some (.float (.finite s m e))
  -- Too great to be finite.
  | _ => none

def unsigned? (negative : Bool) (cs : List Char) : Option Toml :=
  if cs = ['i', 'n', 'f'] then some (.float (.infinite negative))
  else if cs = ['n', 'a', 'n'] then some (.float .nan)
  else if cs.any marksFloat then float? negative cs
  else decimal? negative cs

def based? (base : Nat) (cs : List Char) : Option Toml :=
  match natural? base cs with
  | some n => if inRange n then some (.integer n) else none
  | none => none

def scalar? (cs : List Char) : Option Toml :=
  match cs with
  | ['t', 'r', 'u', 'e'] => some (.boolean true)
  | ['f', 'a', 'l', 's', 'e'] => some (.boolean false)
  | '+' :: cs => unsigned? false cs
  | '-' :: cs => unsigned? true cs
  | '0' :: 'x' :: cs => based? 16 cs
  | '0' :: 'o' :: cs => based? 8 cs
  | '0' :: 'b' :: cs => based? 2 cs
  | cs => if isMoment cs then some .moment else unsigned? false cs

end TabCompletion.Toml
