import GraphShape.Double.Shortest
import GraphShape.Json.Writer

/-!
# Reading positions

A cursor stands in a text and knows the line and the number of bytes of that line it has passed.
A fault is reported either where the cursor stands or one byte on, at the character that it sees
there.
-/

namespace GraphShape.Json

/-! ## Faults -/

/-- What a value was found to be where another kind was expected. -/
inductive Found where
  | null
  | bool (b : Bool)
  | number (n : Number)
  | string (s : String)
  | array
  | object
  deriving DecidableEq, Repr

/-- Why a text is not the value that was expected. -/
inductive Fault where
  | endInList
  | endInObject
  | endInString
  | endInValue
  | expectedColon
  | expectedListEnd
  | expectedObjectEnd
  | expectedIdent
  | expectedValue
  | badEscape
  | badNumber
  | outOfRange
  | controlCharacter
  | keyNotString
  | loneSurrogate
  | trailingComma
  | trailingCharacters
  | endOfHexEscape
  | tooDeep
  | wrongKind (found : Found) (expected : String)
  | unknownVariant (found : String) (expected : List String)
  | duplicateField (name : String)
  | other (text : String)
  deriving DecidableEq, Repr

/-- A fault with the line and the column it is reported at, once that is known. -/
structure ReadError where
  fault : Fault
  place : Option (Nat × Nat)
  deriving DecidableEq, Repr

/-! ## Cursors -/

/-- What is left of a text, and how far the cursor is in it. -/
structure Cursor where
  rest : List Char
  line : Nat
  column : Nat
  deriving DecidableEq, Repr

namespace Cursor

/-- In front of a text. -/
def start (text : List Char) : Cursor := ⟨text, 1, 0⟩

def advance (c : Cursor) : Cursor :=
  match c.rest with
  | [] => c
  | '\n' :: rest => ⟨rest, c.line + 1, 0⟩
  | ch :: rest => ⟨rest, c.line, c.column + ch.utf8Size⟩

def here (c : Cursor) : Nat × Nat := (c.line, c.column)

def next (c : Cursor) : Nat × Nat :=
  match c.rest with
  | [] => c.here
  | '\n' :: _ => (c.line + 1, 0)
  | _ :: _ => (c.line, c.column + 1)

/-- The place so many bytes on, in a text that starts at a place. -/
def bytesOn (bytes : Nat) (line column : Nat) : List Char → Nat × Nat
  | [] => (line, column)
  | ch :: rest =>
    if bytes < ch.utf8Size then (line, column + bytes)
    else if ch = '\n' then bytesOn (bytes - 1) (line + 1) 0 rest
    else bytesOn (bytes - ch.utf8Size) line (column + ch.utf8Size) rest

def bytesLeft (c : Cursor) : Nat := c.rest.foldr (fun ch n => ch.utf8Size + n) 0

end Cursor

/-! ## Readers -/

/-- Reads from a cursor on, or fails. -/
abbrev Reader (α : Type) := StateT Cursor (Except ReadError) α

namespace Reader

variable {α : Type}

def failHere (fault : Fault) : Reader α := fun c => .error ⟨fault, some c.here⟩

def failNext (fault : Fault) : Reader α := fun c => .error ⟨fault, some c.next⟩

def peek : Reader (Option Char) := fun c => .ok (c.rest.head?, c)

def skip : Reader Unit := fun c => .ok ((), c.advance)

end Reader

def isBlank (ch : Char) : Bool := ch = ' ' || ch = '\n' || ch = '\t' || ch = '\r'

def skipBlanks : Nat → Cursor → Cursor
  | 0, c => c
  | n + 1, c =>
    match c.rest with
    | ch :: _ => if isBlank ch then skipBlanks n c.advance else c
    | [] => c

/-- Steps over blanks and looks at the character after them. -/
def peekToken : Reader (Option Char) := fun c =>
  let c := skipBlanks c.rest.length c
  .ok (c.rest.head?, c)

end GraphShape.Json
