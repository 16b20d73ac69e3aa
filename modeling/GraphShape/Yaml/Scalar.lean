import GraphShape.Text.Digits
import GraphShape.Yaml.Cursor

/-!
# Scalars

The four ways to write text: plain, between single or double quotes, and as an indented block.
Within the first three a line break and the blanks around it stand for one blank, and further
line breaks for themselves.
-/

namespace GraphShape.Yaml

/-! ## Gaps between words -/

/-- Blanks and line breaks between two words. -/
structure Gap where
  /-- The blanks in front of the first line break. -/
  blanks : List Char
  /-- The first line break, unless it was escaped. -/
  first : List Char
  /-- The line breaks after the first. -/
  more : List Char
  /-- Whether a line has ended. -/
  broken : Bool
  deriving DecidableEq, Repr

namespace Gap

def none : Gap := ⟨[], [], [], false⟩

/-- What a gap stands for. -/
def fold (g : Gap) : List Char :=
  if !g.broken then g.blanks
  else if g.first = ['\n'] then (if g.more.isEmpty then [' '] else g.more)
  else g.first ++ g.more

/-- Reads a gap. No tab may stand below an indentation. The second argument bounds the steps. -/
def read (indent : Option Nat) : Nat → Gap → Cursor → Option (Gap × Cursor)
  | 0, g, c => some (g, c)
  | n + 1, g, c =>
    match c.peek with
    | Option.none => some (g, c)
    | some ch =>
      if isSpaceOrTab ch then
        if g.broken && ch = '\t' && indent.any (fun i => c.column < i) then Option.none
        else read indent n (if g.broken then g else { g with blanks := g.blanks ++ [ch] }) c.skip
      else if isBreak ch then
        let (text, after) := c.takeBreak
        if g.broken then read indent n { g with more := g.more ++ text } after
        else read indent n { g with blanks := [], first := text, broken := true } after
      else some (g, c)

end Gap

/-! ## Plain scalars -/

def isFlowMark (ch : Char) : Bool := [',', '[', ']', '\x7b', '\x7d'].contains ch

/-- Reads the next word of a plain scalar, up to a gap or a mark that ends it. Inside brackets a
colon in front of another mark is refused. -/
def readWord (flow : Bool) : List Char → Nat → Cursor → Option (List Char × Cursor)
  | seen, 0, c => some (seen, c)
  | seen, n + 1, c =>
    match c.peek with
    | none => some (seen, c)
    | some ch =>
      if c.atGap then some (seen, c)
      else if flow && ch = ':' && (c.ahead 1).any (fun next => next = '?' || isFlowMark next) then
        none
      else if (ch = ':' && c.blankAhead 1) || (flow && isFlowMark ch) then some (seen, c)
      else readWord flow (seen ++ [ch]) n c.skip

/-- Reads words and the gaps between them. A plain scalar ends at a comment, at a mark of a
document, at a mark that ends a word and, outside brackets, at a line that is not indented enough.
The result says whether a line has ended behind it. -/
def readWords (flow : Bool) (indent : Nat) :
    Nat → List Char → Gap → Cursor → Option (List Char × Bool × Cursor)
  | 0, seen, g, c => some (seen, g.broken, c)
  | n + 1, seen, g, c =>
    if c.atDocumentMark || c.sees (fun ch => ch = '#') then some (seen, g.broken, c)
    else do
      let (word, c) ← readWord flow [] (c.rest.length + 1) c
      let (seen, g) := if word.isEmpty then (seen, g) else (seen ++ g.fold ++ word, Gap.none)
      if !(c.atBlank || c.atBreak) then some (seen, g.broken, c)
      else do
        let (g, c) ← Gap.read (some indent) (c.rest.length + 1) g c
        if !flow && c.column < indent then some (seen, g.broken, c)
        else readWords flow indent n seen g c

def readPlain (flow : Bool) (indent : Nat) (c : Cursor) : Option (String × Bool × Cursor) := do
  let (text, broken, c) ← readWords flow indent (c.rest.length + 1) [] Gap.none c
  some (String.ofList text, broken, c)

/-! ## Quoted scalars -/

/-- The character that a letter after a backslash stands for. -/
def escape? (ch : Char) : Option Nat :=
  match ch with
  | '0' => some 0
  | 'a' => some 7
  | 'b' => some 8
  | 't' => some 9
  | '\t' => some 9
  | 'n' => some 10
  | 'v' => some 11
  | 'f' => some 12
  | 'r' => some 13
  | 'e' => some 27
  | ' ' => some 32
  | '"' => some 34
  | '/' => some 47
  | '\\' => some 92
  | 'N' => some 0x85
  | '_' => some 0xA0
  | 'L' => some 0x2028
  | 'P' => some 0x2029
  | _ => none

def escapeWidth? (ch : Char) : Option Nat :=
  match ch with
  | 'x' => some 2
  | 'u' => some 4
  | 'U' => some 8
  | _ => none

/-- Reads what follows a backslash that does not end its line. -/
def readEscape (c : Cursor) : Option (Char × Cursor) := do
  let ch ← c.peek
  match escape? ch with
  | some n => some (Char.ofNat n, c.skip)
  | none => do
    let width ← escapeWidth? ch
    let digits := c.skip.rest.take width
    if digits.length < width then none
    else do
      let n ← Text.natural? 16 digits
      if (0xD800 ≤ n && n ≤ 0xDFFF) || 0x10FFFF < n then none
      else some (Char.ofNat n, c.skip.skipMany width)

/-- Reads characters between quotes up to a gap or the closing quote. The result says whether a
backslash has ended the line. -/
def readInside (quote : Char) :
    List Char → Nat → Cursor → Option (List Char × Bool × Cursor)
  | seen, 0, c => some (seen, false, c)
  | seen, n + 1, c =>
    match c.peek with
    | none => some (seen, false, c)
    | some ch =>
      if c.atGap then some (seen, false, c)
      else if quote = '\'' && ch = '\'' && c.ahead 1 = some '\'' then
        readInside quote (seen ++ ['\'']) n c.skip.skip
      else if ch = quote then some (seen, false, c)
      else if quote = '"' && ch = '\\' then
        if (c.ahead 1).any isBreak then some (seen, true, c.skip.takeBreak.2)
        else do
          let (special, c) ← readEscape c.skip
          readInside quote (seen ++ [special]) n c
      else readInside quote (seen ++ [ch]) n c.skip

/-- Reads the rest of a text behind its opening quote. -/
def readQuotedRest (quote : Char) : Nat → List Char → Cursor → Option (List Char × Cursor)
  | 0, _, _ => none
  | n + 1, seen, c =>
    if c.atDocumentMark || c.atEnd then none
    else do
      let (seen, escaped, c) ← readInside quote seen (c.rest.length + 1) c
      if !escaped && c.peek = some quote then some (seen, c.skip)
      else do
        let start := { Gap.none with broken := escaped }
        let (g, c) ← Gap.read none (c.rest.length + 1) start c
        if c.peek = some quote then some (seen ++ g.fold, c.skip)
        else readQuotedRest quote n (seen ++ g.fold) c

def readQuoted (quote : Char) (c : Cursor) : Option (String × Cursor) := do
  let (text, c) ← readQuotedRest quote (c.rest.length + 1) [] c.skip
  some (String.ofList text, c)

/-! ## Block scalars -/

/-- What becomes of the line breaks at the end of a block. -/
inductive Chomping where
  | strip
  | clip
  | keep
  deriving DecidableEq, Repr

/-- The header of a block: what becomes of its end, and its indentation when that is given. -/
structure BlockHeader where
  chomping : Chomping
  increment : Option Nat
  deriving DecidableEq, Repr

def chomping? (ch : Char) : Option Chomping :=
  match ch with
  | '-' => some .strip
  | '+' => some .keep
  | _ => none

def readIndicator (h : BlockHeader × Cursor) : Option (BlockHeader × Cursor) :=
  let (header, c) := h
  match c.peek with
  | none => some h
  | some ch =>
    match chomping? ch with
    | some chomping =>
      if header.chomping = .clip then some ({ header with chomping := chomping }, c.skip)
      else some h
    | none =>
      if Text.isDecimalDigit ch && header.increment.isNone then
        if ch = '0' then none
        else some ({ header with increment := some (ch.toNat - 48) }, c.skip)
      else some h

/-- Reads the header of a block, behind its mark, and the rest of its line. -/
def readHeader (c : Cursor) : Option (BlockHeader × Cursor) := do
  let (header, c) ← (readIndicator (⟨.clip, none⟩, c)).bind readIndicator
  let c := c.skipWhile isSpaceOrTab
  let c := if c.peek = some '#' then c.toLineEnd else c
  if c.atBreak then some (header, c.takeBreak.2)
  else if c.atEnd then some (header, c)
  else none

/-- Reads blank lines and the blanks that indent the next line, as long as the indentation is not
reached. The result has the line breaks and the deepest indentation. -/
def readBlankLines (indent : Option Nat) :
    Nat → List Char → Nat → Cursor → Option (List Char × Nat × Cursor)
  | 0, breaks, deepest, c => some (breaks, deepest, c)
  | n + 1, breaks, deepest, c =>
    let below := indent.all (fun i => c.column < i)
    if below && c.peek = some ' ' then
      readBlankLines indent n breaks (max deepest (c.column + 1)) c.skip
    else if below && c.peek = some '\t' then none
    else if c.atBreak then
      let (text, c) := c.takeBreak
      readBlankLines indent n (breaks ++ text) deepest c
    else some (breaks, deepest, c)

structure BlockLines where
  text : List Char
  /-- The break at the end of the last line. -/
  last : List Char
  /-- The breaks of the blank lines behind it. -/
  more : List Char
  /-- Whether the last line starts with a blank. -/
  indented : Bool

/-- What stands between a block's last line and the next one. -/
def BlockLines.seam (b : BlockLines) (folded indented : Bool) : List Char :=
  if folded && b.last = ['\n'] && !b.indented && !indented then
    (if b.more.isEmpty then [' '] else []) ++ b.more
  else b.last ++ b.more

/-- Reads the lines of a block that have its indentation. -/
def readBlockLines (folded : Bool) (indent : Nat) :
    Nat → BlockLines → Cursor → Option (BlockLines × Cursor)
  | 0, b, c => some (b, c)
  | n + 1, b, c =>
    if c.column = indent && !c.atEnd then do
      let blank := c.atBlank
      let line := c.rest.takeWhile (fun ch => !isBreak ch)
      let (last, after) := (c.skipMany line.length).takeBreak
      let (more, _, after) ← readBlankLines (some indent) (after.rest.length + 1) [] 0 after
      readBlockLines folded indent n
        ⟨b.text ++ b.seam folded blank ++ line, last, more, blank⟩ after
    else some (b, c)

/-- Reads a block behind its mark. The indentation is that of the first line with text, and deeper
than that of what is around it. -/
def readBlock (folded : Bool) (parent : Int) (c : Cursor) : Option (String × Cursor) := do
  let (header, c) ← readHeader c
  let given := header.increment.map (fun i => if 0 ≤ parent then parent.toNat + i else i)
  let (breaks, deepest, c) ← readBlankLines given (c.rest.length + 1) [] 0 c
  let indent := given.getD (max (max deepest (parent + 1).toNat) 1)
  let (b, c) ← readBlockLines folded indent (c.rest.length + 1) ⟨[], [], breaks, false⟩ c
  let tail := match header.chomping with
    | .strip => []
    | .clip => b.last
    | .keep => b.last ++ b.more
  some (String.ofList (b.text ++ tail), c)

end GraphShape.Yaml
