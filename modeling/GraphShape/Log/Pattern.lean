import GraphShape.Text.Blank
import GraphShape.Text.Digits
import GraphShape.Text.Letters

/-!
# Patterns

Whether a text is a regular expression: groups are closed, repetitions have something to repeat,
classes and escapes are known. A pattern speaks about characters unless it is switched to bytes,
and then it may match nothing that is no text. A repetition with a count and an escape with braces
need a closing brace, which ends a condition in a filter, so no pattern here has them.
-/

namespace GraphShape.Log

/-- Why a text is no pattern that can be used. -/
inductive PatternFault where
  | malformed
  /-- The edge of a word depends on the letters of all scripts. -/
  | wordEdge
  deriving DecidableEq, Repr

namespace Pattern

/-- What is switched on at a place of a pattern. -/
structure Modes where
  /-- Characters count, not bytes. -/
  unicode : Bool
  /-- Blanks and remarks are no part of the pattern. -/
  spaced : Bool
  deriving DecidableEq, Repr

/-! ## Blanks -/

/-- The text behind blanks and remarks, where they are skipped. The number bounds the steps. -/
def skipBlanks (modes : Modes) : Nat → List Char → List Char
  | 0, text => text
  | n + 1, text =>
    match modes.spaced, text with
    | true, '#' :: rest => skipBlanks modes n (rest.dropWhile (fun ch => ch ≠ '\n'))
    | true, ch :: rest => if Text.isBlank ch then skipBlanks modes n rest else text
    | _, _ => text

def skip (modes : Modes) (text : List Char) : List Char := skipBlanks modes text.length text

/-! ## Escapes -/

/-- What a backslash and the characters behind it stand for. -/
inductive Escape where
  | char (code : Nat)
  /-- A number of two digits. -/
  | byte (code : Nat)
  /-- Digits, blanks or letters, or all but those. -/
  | kind (negated : Bool)
  /-- A property of characters. -/
  | property
  | wordEdge
  | textEdge
  deriving DecidableEq, Repr

/-- A character that is half of no pair. -/
def isScalar (n : Nat) : Bool := n < 0xD800 || (0xDFFF < n && n < 0x110000)

/-- Reads a number of so many digits to the base sixteen. -/
def readCode (width : Nat) (text : List Char) : Option (Nat × List Char) := do
  let digits := text.take width
  if digits.length < width then none
  else do
    let n ← Text.natural? 16 digits
    if isScalar n then some (n, text.drop width) else none

/-- The letters of the properties that need only one. -/
def propertyLetters : List Char := ['c', 'l', 'm', 'n', 'p', 's', 'z']

/-- Whether a character stands for itself behind a backslash. -/
def isSelfEscape (ch : Char) : Bool := ch.toNat < 128 && !ch.isAlphanum && ch ≠ '<' && ch ≠ '>'

def simpleEscape? (ch : Char) : Option Nat :=
  match ch with
  | 'a' => some 7
  | 'f' => some 12
  | 't' => some 9
  | 'n' => some 10
  | 'r' => some 13
  | 'v' => some 11
  | _ => none

def readEscape : List Char → Option (Escape × List Char)
  | [] => none
  | ch :: rest =>
    match ch with
    | 'x' => (readCode 2 rest).map (fun (n, rest) => (.byte n, rest))
    | 'u' => (readCode 4 rest).map (fun (n, rest) => (.char n, rest))
    | 'U' => (readCode 8 rest).map (fun (n, rest) => (.char n, rest))
    | 'A' => some (.textEdge, rest)
    | 'z' => some (.textEdge, rest)
    | _ =>
      if ch = 'p' || ch = 'P' then
        match rest with
        | letter :: more =>
          if propertyLetters.contains letter.toLower then some (.property, more) else none
        | [] => none
      else if ['d', 's', 'w'].contains ch then some (.kind false, rest)
      else if ['D', 'S', 'W'].contains ch then some (.kind true, rest)
      else if ['b', 'B', '<', '>'].contains ch then some (.wordEdge, rest)
      else if isSelfEscape ch then some (.char ch.toNat, rest)
      else (simpleEscape? ch).map (fun n => (.char n, rest))

/-- Whether all that an escape matches is text. -/
def Escape.isText (modes : Modes) : Escape → Bool
  | char _ => true
  | byte n => modes.unicode || n < 128
  | kind negated => modes.unicode || !negated
  | property => modes.unicode
  | wordEdge => true
  | textEdge => true

/-! ## Classes -/

def classNames : List String :=
  ["alnum", "alpha", "ascii", "blank", "cntrl", "digit", "graph", "lower", "print", "punct",
    "space", "upper", "word", "xdigit"]

/-- What follows a named class that a text starts with. -/
def afterNamed? : List Char → Option (List Char)
  | '[' :: ':' :: text =>
    let text := match text with
      | '^' :: rest => rest
      | _ => text
    match text.dropWhile (fun ch => ch ≠ ':') with
    | ':' :: ']' :: rest =>
      if classNames.contains (String.ofList (text.takeWhile (fun ch => ch ≠ ':'))) then some rest
      else none
    | _ => none
  | _ => none

/-- An item of a class: a character with its code, or a set of characters. -/
abbrev Item := Option Nat

def readItem (modes : Modes) : List Char → Option (Item × List Char)
  | [] => none
  | '\\' :: rest => do
    let (escape, rest) ← readEscape rest
    if escape.isText modes then
      match escape with
      | .char n => some (some n, rest)
      | .byte n => some (some n, rest)
      | .kind _ => some (none, rest)
      | .property => some (none, rest)
      | .wordEdge => none
      | .textEdge => none
    else none
  | ch :: rest => some (some ch.toNat, rest)

def isClassItem (modes : Modes) (item : Item) : Bool :=
  match item with
  | some n => modes.unicode || n < 128
  | none => true

/-- Reads an item, or two with a hyphen between them, the greater one last. -/
def readRange (modes : Modes) (text : List Char) : Option (List Char) := do
  let (first, rest) ← readItem modes text
  let rest := skip modes rest
  let single := if isClassItem modes first then some rest else none
  match rest with
  | [] => none
  | '-' :: more =>
    match skip modes more with
    | [] => none
    | ']' :: _ => single
    | '-' :: _ => single
    | behind => do
      let (last, rest) ← readItem modes behind
      match first, last with
      | some a, some b =>
        if a ≤ b && isClassItem modes first && isClassItem modes last then some rest else none
      | _, _ => none
  | _ => single

/-- Reads what may stand only at the start of a class: the mark that negates it, and hyphens or a
closing bracket that stand for themselves. -/
def enterClass (modes : Modes) (text : List Char) : Option (List Char) :=
  let text := skip modes text
  let (negated, text) := match text with
    | '^' :: rest => (true, skip modes rest)
    | _ => (false, text)
  if negated && !modes.unicode then none
  else
    match text with
    | [] => none
    | ']' :: rest => some rest
    | _ => some (text.dropWhile (fun ch => ch = '-'))

/-- Reads the rest of a class, so many of which are open inside each other. The first argument
bounds the steps. -/
def readClass (modes : Modes) : Nat → Nat → List Char → Option (List Char)
  | 0, _, _ => none
  | n + 1, level, text =>
    let text := skip modes text
    match text with
    | [] => none
    | ']' :: rest => if level ≤ 1 then some rest else readClass modes n (level - 1) rest
    | '&' :: '&' :: rest => readClass modes n level rest
    | '-' :: '-' :: rest => readClass modes n level rest
    | '~' :: '~' :: rest => readClass modes n level rest
    | '[' :: rest =>
      match afterNamed? text with
      | some rest => readClass modes n level rest
      | none => (enterClass modes rest).bind (readClass modes n (level + 1))
    | _ => (readRange modes text).bind (readClass modes n level)

/-! ## Groups -/

/-- The letters of what can be switched. -/
def modeLetters : List Char := ['i', 's', 'm', 'U', 'u', 'R', 'x']

def isDistinct : List Char → Bool
  | [] => true
  | ch :: rest => !rest.contains ch && isDistinct rest

/-- The modes after those switched on and those behind a hyphen switched off. -/
def switched? (modes : Modes) (letters : List Char) : Option Modes :=
  let on := letters.takeWhile (fun ch => ch ≠ '-')
  let off := (letters.dropWhile (fun ch => ch ≠ '-')).drop 1
  let dangling := letters.getLast? = some '-'
  if dangling || !isDistinct (on ++ off) || !(on ++ off).all modeLetters.contains then none
  else
    let switch := fun (ch : Char) (before : Bool) =>
      (before || on.contains ch) && !off.contains ch
    some ⟨switch 'u' modes.unicode, switch 'x' modes.spaced⟩

inductive Opening where
  | group (modes : Modes)
  | named (name : List Char)
  /-- A change of modes up to the end of the group around it. -/
  | modes (modes : Modes)
  deriving Repr

/-- A name starts with a letter or an underscore. -/
def isName : List Char → Bool
  | [] => false
  | first :: rest =>
    (first = '_' || Text.isLetter first) &&
      rest.all (fun ch => Text.isWordChar ch || ['_', '.', '[', ']'].contains ch)

/-- Reads the name of a group and the mark behind it. -/
def readName (text : List Char) : Option (Opening × List Char) :=
  let name := text.takeWhile (fun ch => ch ≠ '>')
  match text.dropWhile (fun ch => ch ≠ '>') with
  | _ :: rest => if isName name then some (.named name, rest) else none
  | [] => none

/-- Reads what follows an opening parenthesis and makes it more than a plain group. -/
def readOpening (modes : Modes) (text : List Char) : Option (Opening × List Char) :=
  match skip modes text with
  | '?' :: 'P' :: '<' :: rest => readName rest
  | '?' :: '<' :: rest => readName rest
  | '?' :: rest =>
    let letters := rest.takeWhile (fun ch => ch ≠ ':' && ch ≠ ')')
    match rest.dropWhile (fun ch => ch ≠ ':' && ch ≠ ')') with
    | ':' :: more => (switched? modes letters).map (fun m => (.group m, more))
    | _ :: more =>
      if letters.isEmpty then none
      else (switched? modes letters).map (fun m => (.modes m, more))
    | [] => none
  | rest => some (.group modes, rest)

/-! ## Whole patterns -/

/-- What is known at a place of a pattern. -/
structure Place where
  modes : Modes
  /-- The modes around each open group, the innermost first. -/
  outer : List Modes
  names : List (List Char)
  /-- Something stands in front that can be repeated. -/
  repeatable : Bool
  /-- A word edge was met that needs the letters of all scripts. -/
  hasWordEdge : Bool
  deriving Repr

/-- The place behind something that can be repeated. -/
def Place.behindAtom (p : Place) : Place := { p with repeatable := true }

/-- Opens what a parenthesis starts. A name may be given once. -/
def Place.enter? (p : Place) : Opening → Option Place
  | .group modes =>
    some { p with modes := modes, outer := p.modes :: p.outer, repeatable := false }
  | .named name =>
    if p.names.contains name then none
    else
      some { p with outer := p.modes :: p.outer, names := name :: p.names, repeatable := false }
  | .modes modes => some { p with modes := modes, repeatable := false }

def Place.leave? (p : Place) : Option Place :=
  match p.outer with
  | modes :: outer => some { p with modes := modes, outer := outer, repeatable := true }
  | [] => none

/-- The text behind a mark that makes a repetition short. -/
def afterLazy (text : List Char) : List Char :=
  match text with
  | '?' :: rest => rest
  | _ => text

/-- Reads what comes next, which is not empty. -/
def readNext (p : Place) : List Char → Option (Place × List Char)
  | [] => none
  | '(' :: rest => do
    let (opening, rest) ← readOpening p.modes rest
    let inside ← p.enter? opening
    some (inside, rest)
  | ')' :: rest => p.leave?.map (fun p => (p, rest))
  | '[' :: rest => do
    let inside ← enterClass p.modes rest
    let rest ← readClass p.modes (rest.length + 1) 1 inside
    some (p.behindAtom, rest)
  | '\\' :: rest => do
    let (escape, rest) ← readEscape rest
    if escape.isText p.modes then
      let edge := escape = .wordEdge && p.modes.unicode
      some ({ p.behindAtom with hasWordEdge := p.hasWordEdge || edge }, rest)
    else none
  | ch :: rest =>
    if ch = '|' then some ({ p with repeatable := false }, rest)
    else if ['?', '*', '+'].contains ch then
      if p.repeatable then some (p, afterLazy rest) else none
    else if ch = '\x7b' then none
    else if ch = '.' && !p.modes.unicode then none
    else some (p.behindAtom, rest)

/-- Reads a pattern to its end. The first argument bounds the steps. -/
def readAll : Nat → Place → List Char → Option Place
  | 0, _, _ => none
  | n + 1, p, text =>
    match skip p.modes text with
    | [] => if p.outer.isEmpty then some p else none
    | text => (readNext p text).bind (fun (p, rest) => readAll n p rest)

def fault? (pattern : String) : Option PatternFault :=
  match readAll (pattern.length + 1) ⟨⟨true, false⟩, [], [], false, false⟩ pattern.toList with
  | some p => if p.hasWordEdge then some .wordEdge else none
  | none => some .malformed

end Pattern

end GraphShape.Log
