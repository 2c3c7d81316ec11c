import TabCompletion.ArgTokens
import TabCompletion.Number.Shortest

/-!
# Where the values of an argument come from

A `Choice` is a candidate value with an optional description. A `ChoiceSource` offers choices: a
fixed list, a provider that computes the whole list, or a completer that does its own matching.
-/

namespace TabCompletion

inductive ChoiceValue where
  | text (s : String)
  | int (i : Int)
  | float (x : Binary64)
  deriving DecidableEq, Repr

namespace ChoiceValue

/-- The text a value is offered and compared as. -/
def display : ChoiceValue → String
  | text s => s
  | int i => toString i
  | float x => x.text

/-- The number a value is ordered by. -/
def number? : ChoiceValue → Option Binary64
  | text _ => none
  | int i => some (.ofInt i)
  | float x => some x

def isNumeric : ChoiceValue → Bool
  | text _ => false
  | _ => true

def below (a b : ChoiceValue) : Bool :=
  match a.number?, b.number? with
  | some x, some y => x.below y
  | _, _ => false

end ChoiceValue

structure Choice where
  value : ChoiceValue
  description : Option String := none
  deriving DecidableEq, Repr

def Choice.ofText (s : String) : Choice := { value := .text s }

/-- What a completer is asked: the word under the cursor, the line, and where in the line the word
begins and ends, in bytes. -/
structure CompletionRequest where
  text : String
  line : String
  begidx : Nat
  endidx : Nat
  deriving DecidableEq, Repr

/-- The failure of a choice source that cannot compute its choices at all. -/
structure SourceFailure where
  message : String
  deriving DecidableEq, Repr

abbrev Offer := Except SourceFailure (List Choice)

/-- Where candidates come from. A computed source says whether it wants the values consumed so
far; only then is it given them. -/
inductive ChoiceSource where
  | fixed (choices : List Choice)
  | provider (wantsTokens : Bool) (choices : Option ArgTokens → Offer)
  | completer (wantsTokens : Bool) (complete : CompletionRequest → Option ArgTokens → Offer)

namespace ChoiceSource

def wantsTokens : ChoiceSource → Bool
  | fixed _ => false
  | provider w _ => w
  | completer w _ => w

def fixed? : ChoiceSource → Option (List Choice)
  | fixed choices => some choices
  | _ => none

end ChoiceSource

end TabCompletion
