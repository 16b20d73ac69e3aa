import GraphShape.Sdl.BlockText
import GraphShape.Text.Digits

/-!
# Tokens

A schema document is names, numbers, quoted text and marks. Blanks and comments only separate them.
Commas do so too, but there are two places where none may stand, so they are tokens.
-/

namespace GraphShape.Sdl

inductive Token where
  | comma
  | mark (ch : Char)
  | spread
  | name (s : String)
  | int (text : String)
  | float (text : String)
  | quoted (s : String)
  deriving DecidableEq, Repr

namespace Token

/-! ## Characters -/

def isSeparator (ch : Char) : Bool :=
  ch = ' ' || ch = '\t' || ch = '\n' || ch = '\r' || ch.toNat = 0xFEFF

def isMark (ch : Char) : Bool :=
  ['!', '$', '&', '(', ')', ':', '=', '@', '[', ']', '\x7b', '|', '\x7d'].contains ch

def isNameStart (ch : Char) : Bool :=
  ch = '_' || ('a' ≤ ch && ch ≤ 'z') || ('A' ≤ ch && ch ≤ 'Z')

def isNameChar (ch : Char) : Bool := isNameStart ch || Text.isDecimalDigit ch

def isLineEnd (ch : Char) : Bool := ch = '\n' || ch = '\r'

/-! ## Numbers -/

/-- The digits that a text starts with and the rest. There has to be one. -/
def takeDigits? (text : List Char) : Option (List Char × List Char) :=
  match text.takeWhile Text.isDecimalDigit with
  | [] => none
  | digits => some (digits, text.dropWhile Text.isDecimalDigit)

/-- A whole part has no zeros in front. -/
def takeWhole? (text : List Char) : Option (List Char × List Char) := do
  let (digits, rest) ← takeDigits? text
  match digits with
  | '0' :: _ :: _ => none
  | _ => some (digits, rest)

/-- A point and digits, if there is a point. -/
def takeFraction? : List Char → Option (List Char × List Char)
  | '.' :: rest => do
    let (digits, rest) ← takeDigits? rest
    some ('.' :: digits, rest)
  | rest => some ([], rest)

def takeSign : List Char → List Char × List Char
  | '-' :: rest => (['-'], rest)
  | '+' :: rest => (['+'], rest)
  | rest => ([], rest)

/-- A letter for the exponent and its digits, if there is such a letter. -/
def takeExponent? : List Char → Option (List Char × List Char)
  | ch :: rest =>
    if ch = 'e' || ch = 'E' then do
      let (sign, rest) := takeSign rest
      let (digits, rest) ← takeDigits? rest
      some (ch :: (sign ++ digits), rest)
    else some ([], ch :: rest)
  | [] => some ([], [])

/-- Whether a number may end in front of a text. -/
def endsNumber : List Char → Bool
  | ch :: _ => !(isNameChar ch || ch = '.')
  | [] => true

def readNumber (text : List Char) : Option (Token × List Char) := do
  let (sign, rest) := match text with
    | '-' :: rest => (['-'], rest)
    | rest => ([], rest)
  let (whole, rest) ← takeWhole? rest
  let (fraction, rest) ← takeFraction? rest
  let (exponent, rest) ← takeExponent? rest
  if endsNumber rest then
    let digits := String.ofList (sign ++ whole ++ fraction ++ exponent)
    if fraction.isEmpty && exponent.isEmpty then some (int digits, rest)
    else some (float digits, rest)
  else none

/-! ## Quoted text -/

/-- The character of a number that is no half of a pair. -/
def scalarChar? (n : Nat) : Option Char :=
  if n < 0xD800 ∨ (0xDFFF < n ∧ n < 0x110000) then some (Char.ofNat n) else none

def fourDigits? (text : List Char) : Option (Nat × List Char) :=
  if (text.take 4).length < 4 then none
  else (Text.natural? 16 (text.take 4)).map (fun n => (n, text.drop 4))

/-- Reads what follows a backslash and the letter of a numbered character: digits between braces,
four digits, or two times four for the halves of a pair. -/
def readNumbered : List Char → Option (Char × List Char)
  | '\x7b' :: rest => do
    let digits := rest.takeWhile (fun ch => ch ≠ '\x7d')
    match rest.dropWhile (fun ch => ch ≠ '\x7d') with
    | _ :: after => do
      let n ← Text.natural? 16 digits
      let ch ← scalarChar? n
      some (ch, after)
    | [] => none
  | text => do
    let (first, rest) ← fourDigits? text
    if 0xD800 ≤ first ∧ first ≤ 0xDBFF then
      match rest with
      | '\\' :: 'u' :: more => do
        let (second, after) ← fourDigits? more
        if 0xDC00 ≤ second ∧ second ≤ 0xDFFF then
          some (Char.ofNat ((first - 0xD800) * 0x400 + (second - 0xDC00) + 0x10000), after)
        else none
      | _ => none
    else do
      let ch ← scalarChar? first
      some (ch, rest)

def simpleEscape? (ch : Char) : Option Char :=
  match ch with
  | '"' => some '"'
  | '\\' => some '\\'
  | '/' => some '/'
  | 'b' => some (Char.ofNat 8)
  | 'f' => some (Char.ofNat 12)
  | 'n' => some '\n'
  | 'r' => some '\r'
  | 't' => some '\t'
  | _ => none

/-- Reads the rest of a text between quotes, up to the end of its line. The first argument bounds
the steps. -/
def readQuoted : Nat → List Char → List Char → Option (Token × List Char)
  | _, _, [] => none
  | 0, _, _ :: _ => none
  | _ + 1, seen, '"' :: rest => some (quoted (String.ofList seen.reverse), rest)
  | n + 1, seen, '\\' :: 'u' :: rest => do
    let (ch, rest) ← readNumbered rest
    readQuoted n (ch :: seen) rest
  | n + 1, seen, '\\' :: ch :: rest => do
    let plain ← simpleEscape? ch
    readQuoted n (plain :: seen) rest
  | n + 1, seen, ch :: rest =>
    if isLineEnd ch || ch = '\\' then none else readQuoted n (ch :: seen) rest

/-- Reads a text behind its opening quote. One line may end right there. -/
def readText : List Char → Option (Token × List Char)
  | ch :: rest =>
    if isLineEnd ch then readQuoted (rest.length + 1) [ch] rest
    else readQuoted (rest.length + 2) [] (ch :: rest)
  | [] => none

def readBlock : List Char → List Char → Option (Token × List Char)
  | seen, '"' :: '"' :: '"' :: rest => some (quoted (blockText seen.reverse), rest)
  | seen, '\\' :: '"' :: '"' :: '"' :: rest => readBlock ('"' :: '"' :: '"' :: seen) rest
  | seen, ch :: rest => readBlock (ch :: seen) rest
  | _, [] => none

/-! ## Documents -/

def read (first : Char) (rest : List Char) : Option (Token × List Char) :=
  if first = ',' then some (comma, rest)
  else if isMark first then some (mark first, rest)
  else if isNameStart first then
    some (name (String.ofList (first :: rest.takeWhile isNameChar)), rest.dropWhile isNameChar)
  else if Text.isDecimalDigit first || first = '-' then readNumber (first :: rest)
  else
    match first, rest with
    | '"', '"' :: '"' :: more => readBlock [] more
    | '"', _ => readText rest
    | '.', '.' :: '.' :: more => some (spread, more)
    | _, _ => none

/-- The tokens of a text, or none when something in it is no token. The first argument bounds the
steps. -/
def readAll : Nat → List Char → Option (List Token)
  | _, [] => some []
  | 0, _ :: _ => none
  | n + 1, ch :: rest =>
    if isSeparator ch then readAll n rest
    else if ch = '#' then readAll n (rest.dropWhile (fun c => !isLineEnd c))
    else do
      let (token, rest) ← read ch rest
      let more ← readAll n rest
      some (token :: more)

def ofText? (document : String) : Option (List Token) :=
  readAll document.length document.toList

end Token

end GraphShape.Sdl
