/-!
# Stable sorting by insertion

`stableSort before xs` orders `xs` by the strict relation `before`. Elements neither of which is
before the other keep their order. An element that `before` relates to nothing is a wall: no
element passes it.
-/

namespace TabCompletion.Sorting

variable {α : Type}

/-- Put `x` in front of an ordered list: it passes every element that is before it. -/
def place (before : α → α → Bool) (x : α) : List α → List α
  | [] => [x]
  | y :: ys => if before y x then y :: place before x ys else x :: y :: ys

/-- Order a list, keeping the order of elements neither of which is before the other. -/
def stableSort (before : α → α → Bool) : List α → List α
  | [] => []
  | x :: xs => place before x (stableSort before xs)

/-- Order texts by their characters' code points. -/
def textBefore : List Char → List Char → Bool
  | _, [] => false
  | [], _ :: _ => true
  | a :: as, b :: bs => a.toNat < b.toNat || (a == b && textBefore as bs)

/-- Order a list by a text key, computed once per element. -/
def stableSortByText (key : α → List Char) (xs : List α) : List α :=
  (stableSort (fun a b => textBefore a.1 b.1) (xs.map fun x => (key x, x))).map (·.2)

end TabCompletion.Sorting
