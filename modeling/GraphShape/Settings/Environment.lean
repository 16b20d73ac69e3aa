import GraphShape.Settings.Tree
import GraphShape.Text.Blank

/-!
# Settings from the environment

A variable whose name starts with `GRAPHQL_JSON_SCHEMA_`, in any case, is a setting; the rest of
its name is a path of names in small letters. Its value is written in a small notation: truth
values, numbers, quoted text, arrays and tables. Whatever does not follow the notation is text as
it stands.
-/

namespace GraphShape

/-- Variables with their values, in order. -/
abbrev Environment := List (String × String)

namespace SettingTree

/-! ## Bare and quoted values -/

/-- The tree of bare text: a decimal when it has a point, a whole number, or else text. -/
def ofBare (text : List Char) : SettingTree :=
  let text := Text.trim text
  match if text.contains '.' then Extended.ofDecimal? text else none with
  | some r => real r
  | none =>
    match Text.unsigned? 10 (Nat.pow 2 64) text, Text.signed? 10 (Nat.pow 2 63) text with
    | some n, _ => unsigned n
    | none, some n => signed n
    | none, none => string (String.ofList text)

/-- The inside of quoted text and what follows the closing quote. A backslash keeps the character
after it from closing. -/
def splitQuoted : List Char → Option (List Char × List Char)
  | [] => none
  | '"' :: rest => some ([], rest)
  | '\\' :: ch :: rest =>
    (splitQuoted rest).map (fun (inside, after) => ('\\' :: ch :: inside, after))
  | ch :: rest => (splitQuoted rest).map (fun (inside, after) => (ch :: inside, after))

/-- The character of a number, unless it is half of a pair or beyond the last. -/
def charOf? (n : Nat) : Option Char :=
  if n < 0xD800 ∨ (0xDFFF < n ∧ n < 0x110000) then some (Char.ofNat n) else none

/-- Whether a character may stand for itself inside quotes. -/
def isPlain (ch : Char) : Bool := ch = '\t' || (32 ≤ ch.toNat && ch.toNat ≠ 127)

/-- The character after a backslash, for the escapes of one letter. -/
def simpleEscape? (ch : Char) : Option Char :=
  match ch with
  | '"' => some '"'
  | '\\' => some '\\'
  | 'b' => some (Char.ofNat 8)
  | 'f' => some (Char.ofNat 12)
  | 'n' => some '\n'
  | 'r' => some '\r'
  | 't' => some '\t'
  | _ => none

def escapeWidth? (ch : Char) : Option Nat :=
  match ch with
  | 'u' => some 4
  | 'U' => some 8
  | _ => none

/-- The text inside quotes with its escapes resolved. The first argument bounds the steps. -/
def unescape : Nat → List Char → Option (List Char)
  | _, [] => some []
  | 0, _ :: _ => none
  | n + 1, '\\' :: ch :: rest =>
    match simpleEscape? ch, escapeWidth? ch with
    | some plain, _ => (unescape n rest).map (plain :: ·)
    | none, some width =>
      if (rest.take width).length < width then none
      else do
        let code ← Text.natural? 16 (rest.take width)
        let special ← charOf? code
        let more ← unescape n (rest.drop width)
        some (special :: more)
    | none, none => none
  | n + 1, ch :: rest =>
    if isPlain ch && ch ≠ '\\' then (unescape n rest).map (ch :: ·) else none

/-- The characters that fit into so many bytes. -/
def fitting : Nat → List Char → List Char
  | _, [] => []
  | n, ch :: rest => if ch.utf8Size ≤ n then ch :: fitting (n - ch.utf8Size) rest else []

/-- Reads quoted text behind its opening quote. In front of the first escape only as many bytes are
kept as there are characters. -/
def readQuoted (text : List Char) : Option (String × List Char) := do
  let (inside, rest) ← splitQuoted text
  let chars ← unescape inside.length inside
  let plain := inside.takeWhile (fun ch => ch ≠ '\\')
  let kept :=
    if plain.length = inside.length then chars
    else fitting plain.length plain ++ chars.drop plain.length
  some (String.ofList kept, rest)

/-! ## The notation -/

def isSeparator (ch : Char) : Bool :=
  ch = ',' || ch = '\x7b' || ch = '\x7d' || ch = '[' || ch = ']'

def isKeyChar (ch : Char) : Bool :=
  ('a' ≤ ch && ch ≤ 'z') || ('A' ≤ ch && ch ≤ 'Z') || ('0' ≤ ch && ch ≤ '9') ||
    ch = '_' || ch = '-'

def skipBlanks (text : List Char) : List Char := text.dropWhile Text.isPlainBlank

/-- What follows a word that a text starts with. -/
def after? (word : String) (text : List Char) : Option (List Char) :=
  if word.toList.isPrefixOf text then some (text.drop word.length) else none

/-- Reads a key, quoted or bare, and the equals sign. -/
def readKey (text : List Char) : Option (String × List Char) := do
  let (key, rest) ← match skipBlanks text with
    | '"' :: more => readQuoted more
    | bare =>
      match bare.takeWhile isKeyChar with
      | [] => none
      | key => some (String.ofList key, bare.dropWhile isKeyChar)
  match skipBlanks rest with
  | '=' :: more => some (key, more)
  | _ => none

mutual

/-- Reads a value and the blanks around it. The first argument bounds the steps. -/
def readNotation : Nat → List Char → Option (SettingTree × List Char)
  | 0, _ => none
  | n + 1, text => do
    let text := skipBlanks text
    let (tree, rest) ←
      match after? "true" text, after? "false" text with
      | some rest, _ => some (bool true, rest)
      | none, some rest => some (bool false, rest)
      | none, none =>
        match text with
        | '\x7b' :: rest =>
          (readEntries n rest []).map (fun (entries, rest) => (table entries, rest))
        | '[' :: rest => (readItems n rest).map (fun (items, rest) => (array items, rest))
        | '"' :: rest => (readQuoted rest).map (fun (s, rest) => (string s, rest))
        | '\'' :: ch :: '\'' :: rest => some (char ch, rest)
        | '\'' :: _ => none
        | _ =>
          some (ofBare (text.takeWhile (fun ch => !isSeparator ch)),
            text.dropWhile (fun ch => !isSeparator ch))
    some (tree, skipBlanks rest)

/-- Reads the items of an array and its closing bracket. A comma may stand behind the last. -/
def readItems : Nat → List Char → Option (List SettingTree × List Char)
  | 0, _ => none
  | _ + 1, ']' :: rest => some ([], rest)
  | n + 1, text => do
    let (item, rest) ← readNotation n text
    match rest with
    | ',' :: more => do
      let (items, rest) ← readItems n more
      some (item :: items, rest)
    | ']' :: more => some ([item], more)
    | _ => none

/-- Reads the entries of a table and its closing brace, after those already read. -/
def readEntries :
    Nat → List Char → Members SettingTree → Option (Members SettingTree × List Char)
  | 0, _, _ => none
  | _ + 1, '\x7d' :: rest, entries => some (entries, rest)
  | n + 1, text, entries => do
    let (key, rest) ← readKey text
    let (value, rest) ← readNotation n rest
    let entries := entries.put key value
    match rest with
    | ',' :: more => readEntries n more entries
    | '\x7d' :: more => some (entries, more)
    | _ => none

end

def ofVariable (text : String) : SettingTree :=
  match readNotation (2 * text.length + 4) text.toList with
  | some (tree, []) => tree
  | _ => string text

/-! ## Variables -/

/-- The name of every variable that is a setting starts so. -/
def variablePrefix : String := "GRAPHQL_JSON_SCHEMA_"

def smallLetters (text : List Char) : List Char := text.map Char.toLower

/-- Two underscores separate the names of a path. -/
def splitUnderscores : List Char → List (List Char)
  | '_' :: '_' :: rest => [] :: splitUnderscores rest
  | ch :: rest =>
    match splitUnderscores rest with
    | part :: parts => (ch :: part) :: parts
    | [] => [[ch]]
  | [] => [[]]

/-- The path of names that a variable's name stands for, when it is a setting. A point separates
names as two underscores do, and no name on the path is empty. -/
def pathOf? (label : String) : Option (List String) :=
  let name := Text.trim label.toList
  let width := variablePrefix.length
  if smallLetters (name.take width) = smallLetters variablePrefix.toList then
    let own := Text.trim (name.drop width)
    let parts := (splitUnderscores own).flatMap (fun part => part.splitOn '.')
    if parts.any List.isEmpty then none
    else some (parts.map (fun part => String.ofList (smallLetters part)))
  else none

/-- One variable after the other. A later one wins over an earlier one. -/
def ofEnvironment (environment : Environment) : SettingTree :=
  environment.foldl (fun tree (name, text) =>
    match pathOf? name with
    | some path => (nest path (ofVariable text)).join tree
    | none => tree) (table [])

end SettingTree

end GraphShape
