import GraphShape.Yaml.Scalar

/-!
# YAML tokens

The tokens of a YAML text. Indentation shows as tokens that start and end blocks. What may become
the key of a mapping is remembered, and when a colon follows on the same line the key's token is
put in front of it.
-/

namespace GraphShape.Yaml

/-- The bytes of a tag, which need not be those of a text. -/
abbrev TagBytes := List UInt8

inductive Token where
  | version (major minor : Nat)
  | tagHandle (handle : String) (expansion : TagBytes)
  | documentStart
  | documentEnd
  | blockList
  | blockMap
  | blockEnd
  | flowListStart
  | flowListEnd
  | flowMapStart
  | flowMapEnd
  | flowEntry
  | entry
  | key
  | value
  | alias (name : String)
  | anchor (name : String)
  | tag (handle : String) (suffix : TagBytes)
  | scalar (plain : Bool) (text : String)
  deriving DecidableEq, Repr

/-- A place where a key may have started. -/
structure KeyStart where
  /-- A colon has to follow. -/
  required : Bool
  /-- The number of tokens in front of it. -/
  position : Nat
  index : Nat
  line : Nat
  column : Nat
  deriving DecidableEq, Repr

structure Lexer where
  cursor : Cursor
  tokens : Array Token
  /-- The indentations of the blocks around, the innermost first. -/
  indents : List Int
  /-- The key that may have started, for each bracket around and for the block outside. -/
  keys : List (Option KeyStart)
  /-- A key may start here. -/
  keyAllowed : Bool

namespace Lexer

def start (text : List Char) : Lexer := ⟨Cursor.start text, #[], [], [none], true⟩

/-- The indentation of the innermost block, or one less than the least. -/
def indent (l : Lexer) : Int := l.indents.head?.getD (-1)

/-- Inside brackets. -/
def inFlow (l : Lexer) : Bool := 1 < l.keys.length

def push (l : Lexer) (t : Token) : Lexer := { l with tokens := l.tokens.push t }

/-! ## Keys that may have started -/

def keyLimit : Nat := 1024

/-- Gives up a key that is over. One that is required must not be over. -/
def dropStale (c : Cursor) (key : Option KeyStart) : Option (Option KeyStart) :=
  match key with
  | none => some none
  | some k =>
    if k.line < c.line || k.index + keyLimit < c.index then
      if k.required then none else some none
    else some key

/-- Gives up the keys that are over. -/
def dropStaleKeys (l : Lexer) : Option Lexer := do
  let keys ← l.keys.mapM (dropStale l.cursor)
  some { l with keys := keys }

def dropKey (l : Lexer) : Option Lexer :=
  match l.keys with
  | some k :: rest => if k.required then none else some { l with keys := none :: rest }
  | _ => some l

def saveKey (l : Lexer) : Option Lexer :=
  if l.keyAllowed then do
    let l ← l.dropKey
    let c := l.cursor
    let required := !l.inFlow && l.indent = (c.column : Int)
    let key : KeyStart := ⟨required, l.tokens.size, c.index, c.line, c.column⟩
    some { l with keys := some key :: l.keys.drop 1 }
  else some l

/-! ## Blocks -/

/-- Starts a block at a column that is deeper than the innermost block. Its token goes to a place
among the tokens, or to the end. -/
def roll (l : Lexer) (column : Nat) (position : Option Nat) (t : Token) : Lexer :=
  if !l.inFlow && l.indent < (column : Int) then
    { l with
      indents := (column : Int) :: l.indents
      tokens := l.tokens.insertIdxIfInBounds (position.getD l.tokens.size) t }
  else l

/-- Ends the blocks that are deeper than a column. -/
def unrollFrom (column : Int) : List Int → Lexer → Lexer
  | [], l => { l with indents := [] }
  | i :: rest, l =>
    if column < i then unrollFrom column rest (l.push .blockEnd)
    else { l with indents := i :: rest }

def unroll (l : Lexer) (column : Int) : Lexer :=
  if l.inFlow then l else unrollFrom column l.indents l

/-! ## Blanks and comments -/

/-- To the next token. A tab may not indent a line where a key can start. -/
def skipGaps : Nat → Lexer → Lexer
  | 0, l => l
  | n + 1, l =>
    let tabs := l.inFlow || !l.keyAllowed
    let c := l.cursor.skipOrderMark.skipWhile (fun ch => ch = ' ' || (tabs && ch = '\t'))
    let c := if c.peek = some '#' then c.toLineEnd else c
    if c.atBreak then
      skipGaps n { l with cursor := c.takeBreak.2, keyAllowed := l.keyAllowed || !l.inFlow }
    else { l with cursor := c }

/-! ## Directives, anchors and tags -/

def takeWord (c : Cursor) : String × Cursor :=
  let word := c.rest.takeWhile isWordChar
  (String.ofList word, c.skipMany word.length)

def takeNumber (c : Cursor) : Option (Nat × Cursor) :=
  let digits := c.rest.takeWhile Text.isDecimalDigit
  if 9 < digits.length then none
  else (Text.natural? 10 digits).map (fun n => (n, c.skipMany digits.length))

def isUriChar (canonical : Bool) (ch : Char) : Bool :=
  isWordChar ch || [';', '/', '?', ':', '@', '&', '=', '+', '$', '.', '%', '!', '~', '*', '\'', '(',
    ')'].contains ch || (canonical && [',', '[', ']'].contains ch)

/-- The bytes that follow the first byte of a character. -/
def trailing? (first : Nat) : Option Nat :=
  if first < 0x80 then some 0
  else if first / 0x20 = 6 then some 1
  else if first / 0x10 = 14 then some 2
  else if first / 0x08 = 30 then some 3
  else none

/-- The bytes of a text in which percent signs and digits stand for bytes. The first argument is
the number of bytes that a character still lacks. -/
def percentBytes? : Nat → List Char → Option TagBytes
  | 0, [] => some []
  | _ + 1, [] => none
  | lacking, '%' :: high :: low :: rest => do
    let byte ← Text.natural? 16 [high, low]
    let lacking ←
      match lacking with
      | 0 => trailing? byte
      | n + 1 => if byte / 0x40 = 2 then some n else none
    let bytes ← percentBytes? lacking rest
    some (byte.toUInt8 :: bytes)
  | lacking, ch :: rest =>
    if ch = '%' || lacking ≠ 0 then none
    else (percentBytes? 0 rest).map ((String.singleton ch).toUTF8.toList ++ ·)

/-- Text with percent signs and digits for its other bytes. -/
def takeUri (canonical : Bool) (c : Cursor) : Option (TagBytes × Cursor) := do
  let raw := c.rest.takeWhile (isUriChar canonical)
  let bytes ← percentBytes? 0 raw
  some (bytes, c.skipMany raw.length)

/-- What stands in front of the first zero. -/
def beforeZero (bytes : TagBytes) : TagBytes := bytes.takeWhile (fun b => b ≠ 0)

/-- Reads a tag behind its first mark: the handle and the suffix. -/
def takeTag (c : Cursor) : Option (String × TagBytes × Cursor) :=
  if c.peek = some '<' then do
    let (uri, c) ← takeUri true c.skip
    if uri.isEmpty || c.peek ≠ some '>' then none else some ("", beforeZero uri, c.skip)
  else
    let (word, after) := takeWord c
    if after.peek = some '!' then do
      let (suffix, c) ← takeUri false after.skip
      if suffix.isEmpty then none else some ("!" ++ word ++ "!", beforeZero suffix, c)
    else do
      let (more, c) ← takeUri false after
      let suffix := beforeZero (word.toUTF8.toList ++ more)
      if suffix.isEmpty then some ("", "!".toUTF8.toList, c) else some ("!", suffix, c)

/-- Past the end of a line that may only hold a comment. -/
def endLine? (c : Cursor) : Option Cursor :=
  let c := c.skipWhile isSpaceOrTab
  let c := if c.peek = some '#' then c.toLineEnd else c
  if c.atBreak then some c.takeBreak.2 else if c.atEnd then some c else none

def takeHandle (c : Cursor) : Option (String × Cursor) :=
  if c.peek = some '!' then
    let (word, after) := takeWord c.skip
    if after.peek = some '!' then some ("!" ++ word ++ "!", after.skip)
    else if word.isEmpty then some ("!", after)
    else none
  else none

def takeDirective (c : Cursor) : Option (Token × Cursor) := do
  let (name, c) := takeWord c
  if !c.atGap then none
  else
    let c := c.skipWhile isSpaceOrTab
    match name with
    | "YAML" => do
      let (major, c) ← takeNumber c
      if c.peek ≠ some '.' then none
      else do
        let (minor, c) ← takeNumber c.skip
        let c ← endLine? c
        some (.version major minor, c)
    | "TAG" => do
      let (handle, c) ← takeHandle c
      if !c.atBlank then none
      else do
        let (expansion, c) ← takeUri true (c.skipWhile isSpaceOrTab)
        if expansion.isEmpty || !c.atGap then none
        else do
          let c ← endLine? c
          some (.tagHandle handle (beforeZero expansion), c)
    | _ => none

/-- Whether the name of an anchor may end in front of a character. -/
def endsName (c : Cursor) : Bool :=
  c.atGap || c.sees (fun ch => ['?', ':', ',', ']', '\x7d', '%', '@', '\x60'].contains ch)

/-! ## Reading a token -/

def mark (l : Lexer) (t : Token) (keyAllowed : Bool) : Lexer :=
  { l.push t with cursor := l.cursor.skip, keyAllowed := keyAllowed }

/-- The start or the end of a document, or a directive: it ends all blocks. -/
def atMargin (l : Lexer) : Option Lexer := do
  let l ← (l.unroll (-1)).dropKey
  some { l with keyAllowed := false }

def readStart (l : Lexer) (t : Token) : Option Lexer := do
  let l ← l.saveKey
  some ({ l with keys := none :: l.keys }.mark t true)

def readEnd (l : Lexer) (t : Token) : Option Lexer := do
  let l ← l.dropKey
  let keys := if l.inFlow then l.keys.drop 1 else l.keys
  some ({ l with keys := keys }.mark t false)

def readEntry (l : Lexer) : Option Lexer :=
  if !l.inFlow && !l.keyAllowed then none
  else do
    let l ← (l.roll l.cursor.column none .blockList).dropKey
    some (l.mark .entry true)

def readKey (l : Lexer) : Option Lexer :=
  if !l.inFlow && !l.keyAllowed then none
  else do
    let l ← (l.roll l.cursor.column none .blockMap).dropKey
    some (l.mark .key (!l.inFlow))

/-- The colon in front of a value. What may have been a key is one now. -/
def readValue (l : Lexer) : Option Lexer :=
  match l.keys with
  | some k :: rest =>
    let l := { l with
      tokens := l.tokens.insertIdxIfInBounds k.position .key
      keys := none :: rest }
    some ((l.roll k.column (some k.position) .blockMap).mark .value false)
  | _ =>
    if !l.inFlow && !l.keyAllowed then none
    else some ((l.roll l.cursor.column none .blockMap).mark .value (!l.inFlow))

def readName (l : Lexer) (t : String → Token) : Option Lexer := do
  let l ← l.saveKey
  let (name, c) := takeWord l.cursor.skip
  if name.isEmpty || !endsName c then none
  else some { l.push (t name) with cursor := c, keyAllowed := false }

def readTag (l : Lexer) : Option Lexer := do
  let l ← l.saveKey
  let (handle, suffix, c) ← takeTag l.cursor.skip
  if c.atGap || (l.inFlow && c.peek = some ',') then
    some { l.push (.tag handle suffix) with cursor := c, keyAllowed := false }
  else none

def readBlockScalar (l : Lexer) (folded : Bool) : Option Lexer := do
  let l ← l.dropKey
  let (text, c) ← readBlock folded l.indent l.cursor.skip
  some { l.push (.scalar false text) with cursor := c, keyAllowed := true }

def readQuotedScalar (l : Lexer) (quote : Char) : Option Lexer := do
  let l ← l.saveKey
  let (text, c) ← readQuoted quote l.cursor
  some { l.push (.scalar false text) with cursor := c, keyAllowed := false }

def readPlainScalar (l : Lexer) : Option Lexer := do
  let l ← l.saveKey
  let (text, broken, c) ← readPlain l.inFlow (l.indent + 1).toNat l.cursor
  some { l.push (.scalar true text) with cursor := c, keyAllowed := broken }

def startsPlain (l : Lexer) (ch : Char) : Bool :=
  let reserved := ['-', '?', ':', ',', '[', ']', '\x7b', '\x7d', '#', '&', '*', '!', '|', '>', '\'',
    '"', '%', '@', '\x60']
  !(isSpaceOrTab ch || isBreak ch || reserved.contains ch) ||
    (ch = '-' && !(l.cursor.ahead 1).any isSpaceOrTab) ||
    (!l.inFlow && (ch = '?' || ch = ':') && !l.cursor.blankAhead 1)

def readToken (l : Lexer) (ch : Char) : Option Lexer :=
  let c := l.cursor
  if c.column = 0 && ch = '%' then do
    let l ← l.atMargin
    let (t, c) ← takeDirective l.cursor.skip
    some { l.push t with cursor := c }
  else if c.atDocumentMark then do
    let l ← l.atMargin
    some { l.push (if ch = '-' then .documentStart else .documentEnd) with
      cursor := l.cursor.skipMany 3 }
  else if ch = '[' then l.readStart .flowListStart
  else if ch = '\x7b' then l.readStart .flowMapStart
  else if ch = ']' then l.readEnd .flowListEnd
  else if ch = '\x7d' then l.readEnd .flowMapEnd
  else if ch = ',' then do
    let l ← l.dropKey
    some (l.mark .flowEntry true)
  else if ch = '-' && c.blankAhead 1 then l.readEntry
  else if ch = '?' && (l.inFlow || c.blankAhead 1) then l.readKey
  else if ch = ':' && (l.inFlow || c.blankAhead 1) then l.readValue
  else if ch = '*' then l.readName .alias
  else if ch = '&' then l.readName .anchor
  else if ch = '!' then l.readTag
  else if ch = '|' && !l.inFlow then l.readBlockScalar false
  else if ch = '>' && !l.inFlow then l.readBlockScalar true
  else if ch = '\'' || ch = '"' then l.readQuotedScalar ch
  else if l.startsPlain ch then l.readPlainScalar
  else none

/-- Reads the next token, or ends all blocks at the end of the text. -/
def readAll : Nat → Lexer → Option (Array Token)
  | 0, _ => none
  | n + 1, l => do
    let l ← (skipGaps (l.cursor.rest.length + 1) l).dropStaleKeys
    match l.cursor.peek with
    | none => do
      let l ← (l.unroll (-1)).dropKey
      some l.tokens
    | some ch => do
      let l ← (l.unroll l.cursor.column).readToken ch
      readAll n l

end Lexer

def tokens? (text : List Char) : Option (Array Token) :=
  if text.all isPrintable then Lexer.readAll (text.length + 2) (Lexer.start text) else none

end GraphShape.Yaml
