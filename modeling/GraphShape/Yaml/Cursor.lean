/-!
# Places in a YAML text

A cursor knows what is left of a text and where in it that starts. A line break is a line feed, a
carriage return, both together, or one of three rarer characters.
-/

namespace GraphShape.Yaml

structure Cursor where
  rest : List Char
  /-- The bytes in front. -/
  index : Nat
  line : Nat
  column : Nat
  deriving DecidableEq, Repr

/-! ## Characters -/

def isSpaceOrTab (ch : Char) : Bool := ch = ' ' || ch = '\t'

def isBreak (ch : Char) : Bool :=
  ch = '\n' || ch = '\r' || ch.toNat = 0x85 || ch.toNat = 0x2028 || ch.toNat = 0x2029

def isWordChar (ch : Char) : Bool := ch.isAlphanum || ch = '_' || ch = '-'

def isPrintable (ch : Char) : Bool :=
  let n := ch.toNat
  n == 9 || n == 10 || n == 13 || (0x20 ≤ n && n ≤ 0x7E) || n == 0x85 ||
    (0xA0 ≤ n && n ≤ 0xFFFD) || 0x10000 ≤ n

namespace Cursor

/-- In front of a text. -/
def start (text : List Char) : Cursor := ⟨text, 0, 0, 0⟩

def peek (c : Cursor) : Option Char := c.rest.head?

def ahead (c : Cursor) (places : Nat) : Option Char := (c.rest.drop places).head?

/-- Past a character that breaks no line. -/
def skip (c : Cursor) : Cursor :=
  match c.rest with
  | [] => c
  | ch :: rest => ⟨rest, c.index + ch.utf8Size, c.line, c.column + 1⟩

def skipMany (c : Cursor) : Nat → Cursor
  | 0 => c
  | n + 1 => c.skip.skipMany n

/-- Past a line break, which is read as a line feed unless it is one of two rare characters. -/
def takeBreak (c : Cursor) : List Char × Cursor :=
  match c.rest with
  | '\r' :: '\n' :: rest => (['\n'], ⟨rest, c.index + 2, c.line + 1, 0⟩)
  | ch :: rest =>
    let after : Cursor := ⟨rest, c.index + ch.utf8Size, c.line + 1, 0⟩
    if ch.toNat = 0x2028 ∨ ch.toNat = 0x2029 then ([ch], after) else (['\n'], after)
  | [] => ([], c)

/-- Whether a character satisfies a test. The end of the text does not. -/
def sees (c : Cursor) (test : Char → Bool) : Bool := c.peek.any test

def atBlank (c : Cursor) : Bool := c.sees isSpaceOrTab

def atBreak (c : Cursor) : Bool := c.sees isBreak

def atEnd (c : Cursor) : Bool := c.rest.isEmpty

/-- Whether a character some places on is a blank, a break or the end. -/
def blankAhead (c : Cursor) (places : Nat) : Bool :=
  (c.ahead places).all (fun ch => isSpaceOrTab ch || isBreak ch)

/-- At a blank, a break or the end. -/
def atGap (c : Cursor) : Bool := c.blankAhead 0

def startsWith (c : Cursor) (word : String) : Bool := word.toList.isPrefixOf c.rest

def atDocumentMark (c : Cursor) : Bool :=
  c.column = 0 && (c.startsWith "---" || c.startsWith "...") && c.blankAhead 3

/-- Past a byte order mark at the start of a line. -/
def skipOrderMark (c : Cursor) : Cursor :=
  if c.column = 0 && c.sees (fun ch => ch.toNat = 0xFEFF) then c.skip else c

def skipWhile (c : Cursor) (test : Char → Bool) : Cursor :=
  c.skipMany (c.rest.takeWhile test).length

def toLineEnd (c : Cursor) : Cursor := c.skipWhile (fun ch => !isBreak ch)

end Cursor

end GraphShape.Yaml
