/-!
# Block text

The text between triple quotes. The indentation that all lines but the first share goes away, and
so do blank lines at both ends.
-/

namespace GraphShape.Sdl

/-- The lines of a text. A line ends at a line feed, a carriage return or both together. -/
def splitLines : List Char → List (List Char)
  | '\r' :: '\n' :: rest => [] :: splitLines rest
  | '\r' :: rest => [] :: splitLines rest
  | '\n' :: rest => [] :: splitLines rest
  | ch :: rest =>
    match splitLines rest with
    | line :: lines => (ch :: line) :: lines
    | [] => [[ch]]
  | [] => [[]]

def isIndent (ch : Char) : Bool := ch = ' ' || ch = '\t'

def isBlankLine (line : List Char) : Bool := line.all isIndent

def indentOf? (line : List Char) : Option Nat :=
  if isBlankLine line then none else some (line.takeWhile isIndent).length

/-- The least indentation of lines that are not blank, and zero when all are. -/
def sharedIndent (lines : List (List Char)) : Nat := (lines.filterMap indentOf?).min?.getD 0

/-- Without the blank lines at both ends. -/
def trimLines (lines : List (List Char)) : List (List Char) :=
  ((lines.dropWhile isBlankLine).reverse.dropWhile isBlankLine).reverse

/-- The lines without the indentation that all but the first share. -/
def outdent : List (List Char) → List (List Char)
  | [] => []
  | first :: rest => first :: rest.map (fun line => line.drop (sharedIndent rest))

/-- The text that stands between triple quotes. -/
def blockText (raw : List Char) : String :=
  String.ofList (['\n'].intercalate (trimLines (outdent (splitLines raw))))

end GraphShape.Sdl
