import TabCompletion.Grammar.Basic

/-!
# Words that look like flags

A word that begins with a prefix character is read as a flag, unless it is a negative number and
the command has no flag that is one, contains a space, or is the prefix character alone.
-/

namespace TabCompletion

def allDigits (cs : List Char) : Bool := cs.all Char.isDigit

/-- Whether a word reads as a negative number: a minus sign and digits, or a minus sign, digits if
any, a point and digits. -/
def isNegativeNumber (word : String) : Bool :=
  match word.toList with
  | '-' :: cs =>
    let whole := cs.takeWhile (· != '.')
    match cs.dropWhile (· != '.') with
    | [] => !whole.isEmpty && allDigits whole
    | _ :: fraction => !fraction.isEmpty && allDigits fraction && allDigits whole
  | _ => false

namespace Grammar

variable (g : Grammar)

/-- Whether some flag spelling is itself a negative number. -/
def hasNegativeNumberFlags : Bool := g.flagTable.any fun e => isNegativeNumber e.1

def looksLikeFlag (word : String) : Bool :=
  match word.toList with
  | c :: _ :: _ =>
    g.isPrefixChar c && !(isNegativeNumber word && !g.hasNegativeNumberFlags) &&
      !word.toList.contains ' '
  | _ => false

def isSinglePrefixChar (word : String) : Bool :=
  match word.toList with
  | [c] => g.isPrefixChar c
  | _ => false

end Grammar

def beginningWith (text : String) (candidates : List String) : List String :=
  candidates.filter fun c => Text.beginsWith c text

end TabCompletion
