/-!
# What a completion request reads from its surroundings, and tells them
-/

namespace TabCompletion

structure CompletionSettings where
  /-- The greatest number of candidates that is still shown as a table. -/
  maxItems : Nat := 50
  /-- The header of the description column where an argument names none. -/
  descriptiveHeader : String := "Description"
  /-- Whether to hint at an argument that has nothing to complete. -/
  hints : Bool := true
  deriving DecidableEq, Repr

structure Host where
  settings : CompletionSettings := {}
  width : Nat := 80
  deriving DecidableEq, Repr

inductive MessageKind where
  | hint
  | error
  deriving DecidableEq, Repr

/-- A message shown instead of candidates. -/
structure Message where
  kind : MessageKind
  text : String
  deriving DecidableEq, Repr

end TabCompletion
