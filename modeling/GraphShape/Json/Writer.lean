import GraphShape.Double.Shortest
import GraphShape.Json.Basic

/-!
# JSON text

A value has a compact text without any blanks and a pretty one with a member or an item a line.
Both write the same tokens in the same order.
-/

namespace GraphShape

inductive Json.Style where
  | compact
  | pretty
  deriving DecidableEq, Repr

namespace Json

/-! ## Numbers -/

/-- A double is written without an exponent from 10^-5 up to 10^16, and a whole one keeps a
fraction, so it does not read back as a whole number. -/
def doubleLayout : Double.Layout := ⟨some (-4, 16), ".0", .even⟩

def wholeText (n : Int) : List Char :=
  if n < 0 then '-' :: Nat.toDigits 10 n.natAbs else Nat.toDigits 10 n.natAbs

def Number.text : Number → List Char
  | whole n => wholeText n
  | double d => d.format doubleLayout

/-! ## Strings -/

def hexDigit (n : Nat) : Char := Char.ofNat (if n < 10 then 48 + n else 87 + n)

/-- A character as it stands between quotes. Only the quote, the backslash and the control
characters below the blank are written differently. -/
def escapeChar (c : Char) : List Char :=
  if c = '"' then ['\\', '"']
  else if c = '\\' then ['\\', '\\']
  else if c = '\n' then ['\\', 'n']
  else if c = '\r' then ['\\', 'r']
  else if c = '\t' then ['\\', 't']
  else if c.toNat = 8 then ['\\', 'b']
  else if c.toNat = 12 then ['\\', 'f']
  else if c.toNat < 32 then ['\\', 'u', '0', '0', hexDigit (c.toNat / 16), hexDigit (c.toNat % 16)]
  else [c]

def quoted (s : String) : List Char := '"' :: (s.toList.flatMap escapeChar ++ ['"'])

/-! ## Values -/

/-- The line break and the blanks in front of a line at a nesting level. -/
def Style.newline : Style → Nat → List Char
  | compact, _ => []
  | pretty, level => '\n' :: List.replicate (2 * level) ' '

def Style.colon : Style → List Char
  | compact => [':']
  | pretty => [':', ' ']

mutual

/-- The text of a value that starts at a nesting level. -/
def write (style : Style) (level : Nat) : Json → List Char
  | null => "null".toList
  | bool true => "true".toList
  | bool false => "false".toList
  | number n => n.text
  | string s => quoted s
  | array [] => ['[', ']']
  | array (x :: xs) =>
    '[' :: (style.newline (level + 1) ++ write style (level + 1) x ++ writeItems style level xs)
  | object [] => ['\x7b', '\x7d']
  | object ((k, x) :: ms) =>
    '\x7b' :: (style.newline (level + 1) ++ quoted k ++ style.colon ++ write style (level + 1) x ++
      writeMembers style level ms)

/-- The items after the first, and the closing bracket. -/
def writeItems (style : Style) (level : Nat) : List Json → List Char
  | [] => style.newline level ++ [']']
  | x :: xs =>
    ',' :: (style.newline (level + 1) ++ write style (level + 1) x ++ writeItems style level xs)

/-- The members after the first, and the closing brace. -/
def writeMembers (style : Style) (level : Nat) : List (String × Json) → List Char
  | [] => style.newline level ++ ['\x7d']
  | (k, x) :: ms =>
    ',' :: (style.newline (level + 1) ++ quoted k ++ style.colon ++ write style (level + 1) x ++
      writeMembers style level ms)

end

def text (style : Style) (j : Json) : String := String.ofList (j.write style 0)

def compactText (j : Json) : String := j.text .compact

end Json

end GraphShape
