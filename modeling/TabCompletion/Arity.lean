/-!
# How many values an argument takes

`Nargs` is what a command declares, `Arity` the least and greatest number of values it stands for.
-/

namespace TabCompletion

/-- The least number of values, and the greatest unless there is no bound. -/
structure Arity where
  min : Nat
  max : Option Nat
  deriving DecidableEq, Repr

/-- The declared number of values. -/
inductive Nargs where
  | single
  | optional
  | zeroOrMore
  | oneOrMore
  /-- Everything that follows, flag-like or not. -/
  | remainder
  | exactly (count : Nat)
  /-- Between `min` and `max` values; no upper bound if `max` is missing. -/
  | range (min : Nat) (max : Option Nat)
  deriving DecidableEq, Repr

namespace Arity

def exactly (n : Nat) : Arity := ⟨n, some n⟩

/-- Whether `count` values reach the upper bound. -/
def isFull (a : Arity) (count : Nat) : Bool :=
  match a.max with
  | some max => max ≤ count
  | none => false

def takesNoValues (a : Arity) : Bool := a.max == some 0

def text (a : Arity) : String :=
  match a.max with
  | some max => toString a.min ++ ".." ++ toString max
  | none => toString a.min ++ ".."

/-- What was expected, as an error message puts it. -/
def expectation (a : Arity) : String :=
  match a.max with
  | none => "expected at least " ++ toString a.min ++ " argument" ++ (if a.min = 1 then "" else "s")
  | some max =>
    let range := if a.min = max then toString a.min else toString a.min ++ " to " ++ toString max
    "expected " ++ range ++ " argument" ++ (if max = 1 then "" else "s")

end Arity

namespace Nargs

def arity : Nargs → Arity
  | single => .exactly 1
  | optional => ⟨0, some 1⟩
  | zeroOrMore => ⟨0, none⟩
  | oneOrMore => ⟨1, none⟩
  | remainder => ⟨0, none⟩
  | exactly n => .exactly n
  | range min max => ⟨min, max⟩

def isRemainder : Nargs → Bool
  | remainder => true
  | _ => false

def isValid : Nargs → Bool
  | range min (some max) => min ≤ max
  | _ => true

/-- The values of an invocation, each named by `metavar`. -/
def render (metavar : String) : Nargs → String
  | single => metavar
  | optional => "[" ++ metavar ++ "]"
  | zeroOrMore => "[" ++ metavar ++ " [" ++ metavar ++ " ...]]"
  | oneOrMore => metavar ++ " [" ++ metavar ++ " ...]"
  | remainder => "..."
  | exactly n => " ".intercalate (List.replicate n metavar)
  | range min none => metavar ++ "\x7b" ++ toString min ++ "+\x7d"
  | range min (some max) => metavar ++ "\x7b" ++ toString min ++ ".." ++ toString max ++ "\x7d"

end Nargs

end TabCompletion
