/-!
# Terminal escape sequences

`strip` leaves out of a text what a terminal would not print: escape sequences of every kind,
finished or not, and control characters other than the line feed.
-/

namespace TabCompletion.Text.Escape

/-- Where a terminal stands between two characters. -/
inductive State where
  /-- Outside any sequence. -/
  | ground
  /-- After the escape character. -/
  | escape
  /-- After an escape character and intermediate characters. -/
  | escapeIntermediate
  /-- At the start of a control sequence. -/
  | control
  /-- Among the parameters of a control sequence. -/
  | controlParameter
  /-- After the parameters of a control sequence. -/
  | controlIntermediate
  /-- In a control sequence that is malformed. -/
  | controlIgnored
  /-- At the start of a device control string. -/
  | device
  /-- Among the parameters of a device control string. -/
  | deviceParameter
  /-- After the parameters of a device control string. -/
  | deviceIntermediate
  /-- In the data of a device control string. -/
  | deviceData
  /-- In a string that ends only at an escape character or a cancel. -/
  | ignored
  /-- In an operating system command. -/
  | command
  deriving DecidableEq, Repr

def isCancel (n : Nat) : Bool := n == 0x18 || n == 0x1A

/-- Control codes that are acted on without leaving a sequence. -/
def isControl (n : Nat) : Bool := n ≤ 0x17 || n == 0x19 || (0x1C ≤ n && n ≤ 0x1F)

def isIntermediate (n : Nat) : Bool := 0x20 ≤ n && n ≤ 0x2F

/-- The state after a character that means the same in every sequence. -/
def anywhere (s : State) (n : Nat) : State :=
  if isCancel n then .ground else if n == 0x1B then .escape else s

def afterEscape (n : Nat) : State :=
  if isCancel n then .ground
  else if isIntermediate n then .escapeIntermediate
  -- `P`, `[` and `]` begin sequences with a syntax of their own; the rest begin texts.
  else if n == 0x50 then .device
  else if n == 0x5B then .control
  else if n == 0x5D then .command
  else if n == 0x58 || n == 0x5E || n == 0x5F then .ignored
  else if 0x30 ≤ n && n ≤ 0x7E then .ground
  else .escape

/-- The state after a character of a control sequence, inside which `isControl` codes are acted
on. -/
def afterControl (s : State) (n : Nat) : State :=
  if isControl n then s
  else if 0x40 ≤ n && n ≤ 0x7E then .ground
  else match s with
    | .controlIgnored => anywhere s n
    | .controlIntermediate =>
      if isIntermediate n then s else if 0x30 ≤ n && n ≤ 0x3F then .controlIgnored
      else anywhere s n
    | .controlParameter =>
      if isIntermediate n then .controlIntermediate
      else if 0x30 ≤ n && n ≤ 0x3B then s
      else if 0x3C ≤ n && n ≤ 0x3F then .controlIgnored
      else anywhere s n
    | _ =>
      if isIntermediate n then .controlIntermediate
      else if 0x30 ≤ n && n ≤ 0x3F then .controlParameter
      else anywhere s n

def afterDevice (s : State) (n : Nat) : State :=
  if isControl n then s
  else if 0x40 ≤ n && n ≤ 0x7E then .deviceData
  else if isIntermediate n then .deviceIntermediate
  else if 0x30 ≤ n && n ≤ 0x3F then
    match s with
    | .deviceIntermediate => .ignored
    | .deviceParameter => if n ≤ 0x3B then .deviceParameter else .ignored
    | _ => .deviceParameter
  else anywhere s n

def step (s : State) (n : Nat) : State :=
  match s with
  | .ground => if n == 0x1B then .escape else .ground
  | .escape => afterEscape n
  | .escapeIntermediate =>
    if 0x30 ≤ n && n ≤ 0x7E then .ground else anywhere s n
  | .control => afterControl s n
  | .controlParameter => afterControl s n
  | .controlIntermediate => afterControl s n
  | .controlIgnored => afterControl s n
  | .device => afterDevice s n
  | .deviceParameter => afterDevice s n
  | .deviceIntermediate => afterDevice s n
  | .deviceData => anywhere s n
  | .ignored => anywhere s n
  | .command => if n == 0x07 then .ground else anywhere s n

/-- Whether a line feed is acted on in this state rather than taken as data. -/
def actsOnLineFeed : State → Bool
  | .ground => true
  | .escape => true
  | .escapeIntermediate => true
  | .control => true
  | .controlParameter => true
  | .controlIntermediate => true
  | .controlIgnored => true
  | _ => false

def isPrinted (s : State) (n : Nat) : Bool :=
  if n == 0x0A then actsOnLineFeed s
  else s == .ground && 0x20 ≤ n && !(0x80 ≤ n && n ≤ 0x9F)

def stripFrom (s : State) : List Char → List Char
  | [] => []
  | c :: cs =>
    let rest := stripFrom (step s c.toNat) cs
    if isPrinted s c.toNat then c :: rest else rest

/-- What is printed of a text. -/
def strip (cs : List Char) : List Char := stripFrom .ground cs

end TabCompletion.Text.Escape
