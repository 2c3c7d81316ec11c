import TabCompletion.Text.Escape
import TabCompletion.Text.Ranges
import TabCompletion.Text.Width.Tables

/-!
# Columns on screen

`columns` counts the terminal columns of a text. The text is read from its end, because what
follows a character may change its width: a variation selector makes a symbol an emoji, a joiner
merges two emoji, a skin tone takes no column beside its base, and some scripts have ligatures.
`displayWidth` first leaves out terminal escape sequences.
-/

namespace TabCompletion.Text

namespace Width

/-- What follows a character, as far as it can change the character's width. -/
inductive Next where
  | plain
  | lineFeed
  /-- A skin tone. -/
  | skinTone
  /-- An emoji. -/
  | emoji
  /-- A zero-width joiner and an emoji. -/
  | joinedEmoji
  | alef
  | lamed (joined : Bool)
  | ya (joined : Bool)
  /-- The Buginese vowel sign that merges with a joined ya. -/
  | vowelAndYa
  | tifinagh (joined : Bool)
  /-- A Tifinagh consonant after its joiner. -/
  | tifinaghJoiner
  /-- The second of two Lisu tone letters. -/
  | toneLetter
  /-- The Old Turkic letter that merges with the letter before it. -/
  | orkhonI
  | coengLetter
  deriving DecidableEq, Repr

/-- A variation selector that is still looking for the character it applies to. -/
inductive Selector where
  | emoji
  | text
  deriving DecidableEq, Repr

/-- The reading position: what follows, and a variation selector that follows directly. -/
structure Following where
  next : Next := .plain
  selector : Option Selector := none
  deriving DecidableEq, Repr

/-- Whether ignorable characters may stand before this without breaking a ligature. -/
def Next.isLigature : Next → Bool
  | lamed _ => true
  | ya _ => true
  | vowelAndYa => true
  | tifinagh _ => true
  | tifinaghJoiner => true
  | toneLetter => true
  | orkhonI => true
  | coengLetter => true
  | _ => false

def Next.survivesSelector : Next → Bool
  | joinedEmoji => true
  | alef => true
  | n => n.isLigature

/-- A zero-width joiner read before a part of a ligature. -/
def Next.joined : Next → Next
  | lamed _ => lamed true
  | ya _ => ya true
  | tifinagh _ => tifinagh true
  | n => n

def isTifinagh (n : Nat) : Bool := (0x2D31 ≤ n && n ≤ 0x2D65) || n == 0x2D6F

/-- Whether a letter is a lam, which merges with a following alef. -/
def isLam (n : Nat) : Bool :=
  n == 0x644 || (0x6B5 ≤ n && n ≤ 0x6B8) || n == 0x76A || n == 0x8A6 || n == 0x8C7

/-- The columns of a character by itself, and what it is to the character before it. -/
def alone (c : Char) : Int × Following :=
  let n := c.toNat
  if n == 0xFE0F then (0, { selector := some .emoji })
  else if n == 0xFE0E then (0, { selector := some .text })
  else if 0x1F3FB ≤ n && n ≤ 0x1F3FF then (2, { next := .skinTone })
  else if inRanges emojiByDefault c then (2, { next := .emoji })
  else if inRanges zeroWidth c then (0, {})
  else if inRanges doubleWidth c then (2, {})
  else if inRanges alefs c then (1, { next := .alef })
  else if n == 0x5DC then (1, { next := .lamed false })
  else if n == 0x1A10 then (1, { next := .ya false })
  else if isTifinagh n then (1, { next := .tifinagh false })
  else if n == 0xA4FC || n == 0xA4FD then (1, { next := .toneLetter })
  else if n == 0x10C03 then (1, { next := .orkhonI })
  else if inRanges coengLetters c then (1, { next := .coengLetter })
  else (1, {})

/-- The columns of a character that merges with what follows it, if it does. -/
def merged? (c : Char) (next : Next) : Option (Int × Following) :=
  let n := c.toNat
  match next with
  | .alef =>
    if isLam n then some (0, {})
    else if inRanges zeroWidth c then some (0, { next := .alef })
    else none
  | .lamed true => if n == 0x5D0 then some (0, {}) else none
  -- The letter is written beneath the one before, so its column is taken back.
  | .coengLetter => if n == 0x17D2 then some (-1, {}) else none
  | .ya true => if n == 0x1A17 then some (0, { next := .vowelAndYa }) else none
  | .vowelAndYa => if n == 0x1A15 then some (0, {}) else none
  | .tifinagh joined =>
    if n == 0x2D7F then some (1, { next := .tifinaghJoiner })
    else if joined && isTifinagh n then some (0, {})
    else none
  | .tifinaghJoiner => if isTifinagh n then some (-1, {}) else none
  | .toneLetter => if 0xA4F8 ≤ n && n ≤ 0xA4FB then some (0, {}) else none
  | .orkhonI => if n == 0x10C32 then some (0, {}) else none
  | .skinTone =>
    if inRanges modifierBase c then some (0, { next := .emoji })
    else if n == 0x200D then some (0, { next := .joinedEmoji })
    else none
  | .emoji => if n == 0x200D then some (0, { next := .joinedEmoji }) else none
  | .joinedEmoji =>
    if 0x1F3FB ≤ n && n ≤ 0x1F3FF then some (0, { next := .skinTone })
    else if inRanges emojiByDefault c then some (0, { next := .emoji })
    else none
  | _ => none

/-- The columns of a character above the Latin-1 controls, given what follows it. -/
def beside (c : Char) (next : Next) : Int × Following :=
  if next == .plain then alone c
  else if c.toNat == 0xFE0F then
    (0, { next := if next.survivesSelector then next else .plain, selector := some .emoji })
  else if c.toNat == 0xFE0E then
    (0, { next := if next.isLigature || next == .alef then next else .plain
          selector := some .text })
  else if next.isLigature && c.toNat == 0x200D then (0, { next := next.joined })
  else
    match merged? c next with
    | some r => r
    | none =>
      if next.isLigature && inRanges zeroWidth c then (0, { next := next }) else alone c

/-- The columns of a character given what follows it, once no selector applies to it. -/
def unselected (c : Char) (next : Next) : Int × Following :=
  if c.toNat ≤ 0xA0 then
    if c = '\n' then (0, { next := .lineFeed })
    else if c = '\r' && next == .lineFeed then (0, {})
    else (1, {})
  else beside c next

/-- The columns that a character adds before `f`, and what it is to the character before it. -/
def step (c : Char) (f : Following) : Int × Following :=
  -- A selector that does not apply still hides from the character what follows, ligatures apart.
  let afterSelector := if f.next.isLigature || f.next == .alef then f.next else .plain
  match f.selector with
  | some .emoji =>
    if inRanges textByDefault c || inRanges textOnRequest c then
      (if f.next == .joinedEmoji then 0 else 2, { next := .emoji })
    else unselected c afterSelector
  | some .text =>
    if inRanges textOnRequest c then (1, {}) else unselected c afterSelector
  | none => unselected c f.next

def measure : List Char → Int × Following
  | [] => (0, {})
  | c :: cs =>
    let (n, f) := measure cs
    let (k, f) := step c f
    (n + k, f)

end Width

/-- The columns of a text as it stands. -/
def columns (s : String) : Nat := (Width.measure s.toList).1.toNat

/-- The columns of a text on a terminal, which prints no escape sequences. -/
def displayWidth (s : String) : Nat := (Width.measure (Escape.strip s.toList)).1.toNat

end TabCompletion.Text
