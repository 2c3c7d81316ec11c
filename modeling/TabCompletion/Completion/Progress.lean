import TabCompletion.Completion.Interruption
import TabCompletion.Grammar.Help

/-!
# How far an argument has got
-/

namespace TabCompletion

/-- An argument that is taking values, and how many it has. -/
structure Progress where
  slot : Slot
  count : Nat := 0

namespace Progress

variable (p : Progress)

def arg : ArgDef Grammar := p.slot.arg

def isRemainder : Bool := p.arg.isRemainder

def isUnfinished : Bool := p.count < p.arg.arity.min

def isFull : Bool := p.arg.arity.isFull p.count

def advance : Progress := { p with count := p.count + 1 }

def unfinished : Interruption := .unfinishedArgument p.arg.displayName p.arg.arity p.count

/-- Record a value: the argument with one more, and the values by destination. -/
def consume (word : String) (values : ArgTokens) : Progress × ArgTokens :=
  (p.advance, values.push p.arg.dest word)

end Progress

end TabCompletion
