import TabCompletion.Toml.Basic

/-!
# Dates and times

`isMoment` recognises dates, times of day and both together, the latter with or without a distance
from universal time. Only whether a text is one matters; its value is used nowhere.
-/

namespace TabCompletion.Toml

/-- Read exactly `n` digits as a number. -/
def digits? (n : Nat) (cs : List Char) : Option (Nat × List Char) :=
  let ds := cs.take n
  if ds.length = n && ds.all Char.isDigit then
    some (Binary64.digitsValue ds, cs.drop n)
  else none

def oneOf? (p : Char → Bool) : List Char → Option (List Char)
  | [] => none
  | c :: cs => if p c then some cs else none

def daysInMonth (year month : Nat) : Nat :=
  if month = 2 then
    if year % 4 = 0 && (year % 100 != 0 || year % 400 = 0) then 29 else 28
  else if month = 4 || month = 6 || month = 9 || month = 11 then 30
  else 31

def date? (cs : List Char) : Option (List Char) := do
  let (year, cs) ← digits? 4 cs
  let cs ← oneOf? (· == '-') cs
  let (month, cs) ← digits? 2 cs
  let cs ← oneOf? (· == '-') cs
  let (day, cs) ← digits? 2 cs
  if 1 ≤ month && month ≤ 12 && 1 ≤ day && day ≤ daysInMonth year month then some cs
  else none

def fraction? : List Char → Option (List Char)
  | '.' :: cs => if cs.head?.any Char.isDigit then some (cs.dropWhile Char.isDigit) else none
  | cs => some cs

def seconds? : List Char → Option (List Char)
  | ':' :: cs => do
    let (second, cs) ← digits? 2 cs
    -- The last minute of a day may have a leap second.
    if second ≤ 60 then fraction? cs else none
  | cs => some cs

def time? (cs : List Char) : Option (List Char) := do
  let (hour, cs) ← digits? 2 cs
  let cs ← oneOf? (· == ':') cs
  let (minute, cs) ← digits? 2 cs
  if hour ≤ 23 && minute ≤ 59 then seconds? cs else none

/-- Whether a text is a distance from universal time, or empty. -/
def isZone (cs : List Char) : Bool :=
  match cs with
  | [] => true
  | ['Z'] => true
  | ['z'] => true
  | c :: cs =>
    (c == '+' || c == '-') &&
      (match digits? 2 cs with
        | some (hour, ':' :: cs) =>
          match digits? 2 cs with
          | some (minute, []) => hour ≤ 23 && minute ≤ 59
          | _ => false
        | _ => false)

def isMoment (cs : List Char) : Bool :=
  match date? cs with
  | some [] => true
  | some (c :: cs) =>
    (c == 'T' || c == 't' || c == ' ') &&
      (match time? cs with
        | some zone => isZone zone
        | none => false)
  | none => time? cs == some []

/-- Whether a text has the outer form of a date, so that a space after it may be followed by a time
of day. -/
def isDateLike (cs : List Char) : Bool := date? cs == some []

end TabCompletion.Toml
