/-!
# Values by destination

`ArgTokens` records the values given so far under each argument's destination, in the order in
which the destinations were first used.
-/

namespace TabCompletion

/-- The values consumed so far, by destination, in order of first use. -/
structure ArgTokens where
  entries : List (String × List String) := []
  deriving DecidableEq, Repr

namespace ArgTokens

def empty : ArgTokens := ⟨[]⟩

def get? (t : ArgTokens) (dest : String) : Option (List String) := t.entries.lookup dest

/-- Change the values of `dest` by `f`, which is given the present ones. A new destination goes
to the end. -/
def alterEntries (dest : String) (f : Option (List String) → List String) :
    List (String × List String) → List (String × List String)
  | [] => [(dest, f none)]
  | (d, vs) :: rest =>
    if d = dest then (d, f (some vs)) :: rest else (d, vs) :: alterEntries dest f rest

/-- Give `dest` these values and no others. -/
def insert (t : ArgTokens) (dest : String) (values : List String) : ArgTokens :=
  ⟨alterEntries dest (fun _ => values) t.entries⟩

def push (t : ArgTokens) (dest : String) (value : String) : ArgTokens :=
  ⟨alterEntries dest (fun vs => vs.getD [] ++ [value]) t.entries⟩

/-- Make sure that `dest` has an entry, empty if it had none. -/
def touch (t : ArgTokens) (dest : String) : ArgTokens :=
  ⟨alterEntries dest (fun vs => vs.getD []) t.entries⟩

def overlay (outer inner : ArgTokens) : ArgTokens :=
  inner.entries.foldl (fun t e => t.insert e.1 e.2) outer

end ArgTokens

end TabCompletion
