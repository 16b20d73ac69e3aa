import GraphShape.Json.Cursor

/-!
# Reading JSON text

A reader for each kind of token and one for whole values. Nesting of 128 levels is refused, a
key that is repeated keeps its first place and its last value, and a number that is no whole
number of 64 bits is read as a double: its digits as long as they fit 64 bits, then one
multiplication or division by a power of ten.
-/

namespace GraphShape.Json

open Reader

/-- The least number of nested arrays and objects that is refused. -/
def nestingLimit : Nat := 128

/-! ## Words and strings -/

def readLetters : List Char → Reader Unit
  | [] => pure ()
  | expected :: more => do
    match ← peek with
    | none => failHere .endInValue
    | some ch =>
      if ch = expected then do skip; readLetters more
      else failNext .expectedIdent

def hexValue? (ch : Char) : Option Nat :=
  if '0' ≤ ch ∧ ch ≤ '9' then some (ch.toNat - 48)
  else if 'a' ≤ ch ∧ ch ≤ 'f' then some (ch.toNat - 87)
  else if 'A' ≤ ch ∧ ch ≤ 'F' then some (ch.toNat - 55)
  else none

def hexValues? (digits : List Char) : Option Nat :=
  digits.foldl (fun acc ch => do let a ← acc; let d ← hexValue? ch; pure (16 * a + d)) (some 0)

def readHex : Reader Nat := fun c =>
  if c.bytesLeft < 4 then
    .error ⟨.endInString, some (Cursor.bytesOn c.bytesLeft c.line c.column c.rest)⟩
  else
    match hexValues? (c.rest.take 4) with
    | some n => .ok (n, c.advance.advance.advance.advance)
    | none => .error ⟨.badEscape, some (Cursor.bytesOn 4 c.line c.column c.rest)⟩

/-- Reads what follows `\\u`. Two escapes that are halves of a pair make one character. -/
def readUnicodeEscape : Reader Char := do
  let first ← readHex
  if 0xDC00 ≤ first ∧ first ≤ 0xDFFF then failHere .loneSurrogate
  else if first < 0xD800 ∨ 0xDBFF < first then pure (Char.ofNat first)
  else do
    match ← peek with
    | none => failHere .endInString
    | some ch => if ch = '\\' then skip else failNext .endOfHexEscape
    match ← peek with
    | none => failHere .endInString
    | some ch => if ch = 'u' then skip else failNext .endOfHexEscape
    let second ← readHex
    if second < 0xDC00 ∨ 0xDFFF < second then failHere .loneSurrogate
    else pure (Char.ofNat ((first - 0xD800) * 0x400 + (second - 0xDC00) + 0x10000))

def readEscape : Reader Char := do
  match ← peek with
  | none => failHere .endInString
  | some 'u' => do skip; readUnicodeEscape
  | some '"' => do skip; pure '"'
  | some '\\' => do skip; pure '\\'
  | some '/' => do skip; pure '/'
  | some 'b' => do skip; pure (Char.ofNat 8)
  | some 'f' => do skip; pure (Char.ofNat 12)
  | some 'n' => do skip; pure '\n'
  | some 'r' => do skip; pure '\r'
  | some 't' => do skip; pure '\t'
  | some _ => failNext .badEscape

/-- Reads the rest of a string after its opening quote. The first argument bounds the steps, and
the length of the rest always suffices. -/
def readChars : Nat → List Char → Reader String
  | 0, _ => failHere .endInString
  | n + 1, seen => do
    match ← peek with
    | none => failHere .endInString
    | some '"' => do skip; pure (String.ofList seen.reverse)
    | some '\\' => do
      skip
      let ch ← readEscape
      readChars n (ch :: seen)
    | some ch =>
      if ch.toNat < 32 then failNext .controlCharacter
      else do skip; readChars n (ch :: seen)

def readQuoted : Reader String := do
  skip
  fun c => readChars (c.rest.length + 1) [] c

/-! ## Numbers -/

def isDigit (ch : Char) : Bool := '0' ≤ ch && ch ≤ '9'

def digitValue (ch : Char) : Nat := ch.toNat - 48

def peekDigits : Reader (List Char) := fun c => .ok (c.rest.takeWhile isDigit, c)

def skipMany : Nat → Reader Unit
  | 0 => pure ()
  | n + 1 => do skip; skipMany n

def maxWhole : Nat := Nat.pow 2 64 - 1

/-- Adds digits to a number while it fits 64 bits, and gives the digits left over. -/
def gatherDigits (start : Nat) : List Char → Nat × List Char
  | [] => (start, [])
  | ch :: rest =>
    let grown := 10 * start + digitValue ch
    if grown ≤ maxWhole then gatherDigits grown rest else (start, ch :: rest)

/-- A number divided by 10^308 as often as a small power of ten needs it. -/
def shrink : Nat → Double → Int → Double × Int
  | 0, d, power => (d, power)
  | n + 1, d, power =>
    if power < -308 ∧ ¬ d.isZero then
      match Double.tenPower? 308 with
      | some p => shrink n ((d.div? p).getD (Double.zero d.negative)) (power + 308)
      | none => (d, power)
    else (d, power)

/-- The double for digits and a power of ten: the digits are rounded, and so is the product or
the quotient with the rounded power. None when that is beyond the greatest. -/
def scaled? (significand : Nat) (power : Int) : Option Double := do
  let d ← Double.ofNat? significand
  if 308 < power then
    if d.isZero then some d else none
  else if 0 ≤ power then do
    let p ← Double.tenPower? power.toNat
    d.mul? p
  else do
    -- Four divisions by 10^308 make any double zero.
    let (d, power) := shrink 4 d power
    if d.isZero then some d
    else do
      let p ← Double.tenPower? (-power).toNat
      d.div? p

/-- The number that digits and a power of ten stand for. -/
def finishDouble (negative : Bool) (significand : Nat) (power : Int) : Reader Number := do
  match scaled? significand power with
  | some d => pure (.double { d with negative := negative })
  | none => failHere .outOfRange

def maxPower : Nat := Nat.pow 2 31 - 1

/-- Adds digits to an exponent while it is kept, and gives the digits left over. -/
def gatherPower (start : Nat) : List Char → Nat × List Char
  | [] => (start, [])
  | ch :: rest =>
    let grown := 10 * start + digitValue ch
    if grown ≤ maxPower then gatherPower grown rest else (start, ch :: rest)

def readExponent (negative : Bool) (significand : Nat) (power : Int) : Reader Number := do
  skip
  let down ← (do
    match ← peek with
    | some '+' => do skip; pure false
    | some '-' => do skip; pure true
    | _ => pure false : Reader Bool)
  match ← peek with
  | none => failHere .endInValue
  | some ch => if isDigit ch then pure () else failNext .badNumber
  let digits ← peekDigits
  let (exponent, more) := gatherPower 0 digits
  match more with
  | [] => do
    skipMany digits.length
    let total := if down then power - exponent else power + exponent
    finishDouble negative significand (min (max total (-(Nat.pow 2 31 : Int))) maxPower)
  | _ :: _ =>
    if significand ≠ 0 ∧ ¬ down then do
      skipMany (digits.length - more.length + 1)
      failHere .outOfRange
    else do
      skipMany digits.length
      pure (.double (Double.zero negative))

/-- Reads what may follow the digits of a number: an exponent. -/
def readScale (negative : Bool) (significand : Nat) (power : Int) : Reader Number := do
  match ← peek with
  | some 'e' => readExponent negative significand power
  | some 'E' => readExponent negative significand power
  | _ => finishDouble negative significand power

def readFraction (negative : Bool) (significand : Nat) (power : Int) : Reader Number := do
  skip
  let digits ← peekDigits
  let (grown, more) := gatherDigits significand digits
  skipMany digits.length
  if digits.isEmpty then
    match ← peek with
    | some _ => failNext .badNumber
    | none => failHere .endInValue
  else readScale negative grown (power - (digits.length - more.length : Nat))

/-- The number of a whole number's digits: zero with a minus is a double, and so is a negative
number that does not fit 64 bits. -/
def wholeNumber (negative : Bool) (n : Nat) : Option Number :=
  if negative then
    if n = 0 then some (.double (Double.zero true))
    else if n ≤ Nat.pow 2 63 then some (.whole (-n))
    else (Double.ofNat? n).map (fun d => .double d.negate)
  else some (.whole n)

/-- Reads what follows a whole part that fits 64 bits. -/
def readAfterWhole (negative : Bool) (significand : Nat) : Reader Number := do
  match ← peek with
  | some '.' => readFraction negative significand 0
  | some 'e' => readExponent negative significand 0
  | some 'E' => readExponent negative significand 0
  | _ =>
    match wholeNumber negative significand with
    | some n => pure n
    | none => failHere .outOfRange

/-- Reads what follows a whole part with digits that no longer fit. -/
def readAfterLong (negative : Bool) (significand dropped : Nat) : Reader Number := do
  match ← peek with
  | some '.' => readFraction negative significand dropped
  | _ => readScale negative significand dropped

def readNumber (negative : Bool) : Reader Number := do
  match ← peek with
  | none => failHere .endInValue
  | some '0' => do
    skip
    match ← peek with
    | some ch => if isDigit ch then failNext .badNumber else readAfterWhole negative 0
    | none => readAfterWhole negative 0
  | some ch =>
    if isDigit ch then do
      let digits ← peekDigits
      let (significand, more) := gatherDigits 0 digits
      skipMany digits.length
      match more with
      | [] => readAfterWhole negative significand
      | _ :: _ => readAfterLong negative significand more.length
    else failNext .badNumber

/-! ## Values -/

/-- Whether an array has another item: the cursor is then at it. -/
def hasItem (first : Bool) : Reader Bool := do
  match ← peekToken with
  | none => failNext .endInList
  | some ']' => pure false
  | some ch =>
    if first then pure true
    else if ch = ',' then do
      skip
      match ← peekToken with
      | some ']' => failNext .trailingComma
      | some _ => pure true
      | none => failNext .endInValue
    else failNext .expectedListEnd

/-- Whether an object has another member: the cursor is then at its key. -/
def hasMember (first : Bool) : Reader Bool := do
  match ← peekToken with
  | none => failNext .endInObject
  | some '\x7d' => pure false
  | some ch =>
    if first then
      if ch = '"' then pure true else failNext .keyNotString
    else if ch = ',' then do
      skip
      match ← peekToken with
      | some '"' => pure true
      | some '\x7d' => failNext .trailingComma
      | some _ => failNext .keyNotString
      | none => failNext .endInValue
    else failNext .expectedObjectEnd

def readColon : Reader Unit := do
  match ← peekToken with
  | some ':' => skip
  | some _ => failNext .expectedColon
  | none => failNext .endInObject

/-- Fails when no further level of nesting is allowed. -/
def enter : Nat → Reader Nat
  | 0 => failNext .tooDeep
  | 1 => failNext .tooDeep
  | depth + 1 => pure depth

mutual

/-- Reads a value. The first argument bounds the steps, and twice the length of the text always
suffices. The second is the levels of nesting left. -/
def readValue : Nat → Nat → Reader Json
  | 0, _ => failNext .endInValue
  | n + 1, depth => do
    match ← peekToken with
    | none => failNext .endInValue
    | some 'n' => do skip; readLetters ['u', 'l', 'l']; pure .null
    | some 't' => do skip; readLetters ['r', 'u', 'e']; pure (.bool true)
    | some 'f' => do skip; readLetters ['a', 'l', 's', 'e']; pure (.bool false)
    | some '-' => do skip; let number ← readNumber true; pure (.number number)
    | some '"' => do let s ← readQuoted; pure (.string s)
    | some '[' => do
      let depth ← enter depth
      skip
      readItems n depth true []
    | some '\x7b' => do
      let depth ← enter depth
      skip
      readMembers n depth true []
    | some ch =>
      if isDigit ch then do let number ← readNumber false; pure (.number number)
      else failNext .expectedValue

/-- Reads the items of an array and its closing bracket. -/
def readItems : Nat → Nat → Bool → List Json → Reader Json
  | 0, _, _, _ => failNext .endInList
  | n + 1, depth, first, seen => do
    if ← hasItem first then do
      let item ← readValue n depth
      readItems n depth false (item :: seen)
    else do
      skip
      pure (.array seen.reverse)

/-- Reads the members of an object and its closing brace. -/
def readMembers : Nat → Nat → Bool → Members Json → Reader Json
  | 0, _, _, _ => failNext .endInObject
  | n + 1, depth, first, seen => do
    if ← hasMember first then do
      let key ← readQuoted
      readColon
      let value ← readValue n depth
      readMembers n depth false (seen.put key value)
    else do
      skip
      pure (.object seen)

end

/-- Enough steps for any text of a length. -/
def steps (length : Nat) : Nat := 2 * length + 4

/-- Nothing but blanks may follow. -/
def readEnd : Reader Unit := do
  match ← peekToken with
  | some _ => failNext .trailingCharacters
  | none => pure ()

/-- What a value is found to be when another kind is expected. Brackets are only seen. -/
def readFound : Reader Found := do
  match ← peek with
  | some 'n' => do skip; readLetters ['u', 'l', 'l']; pure .null
  | some 't' => do skip; readLetters ['r', 'u', 'e']; pure (.bool true)
  | some 'f' => do skip; readLetters ['a', 'l', 's', 'e']; pure (.bool false)
  | some '-' => do skip; let number ← readNumber true; pure (.number number)
  | some '"' => do let s ← readQuoted; pure (.string s)
  | some '[' => pure .array
  | some '\x7b' => pure .object
  | some ch =>
    if isDigit ch then do let number ← readNumber false; pure (.number number)
    else failNext .expectedValue
  | none => failNext .expectedValue

def failKind {α : Type} (expected : String) : Reader α := do
  let found ← readFound
  failHere (.wrongKind found expected)

def parse (text : String) : Except ReadError Json :=
  let chars := text.toList
  let whole : Reader Json := do
    let j ← readValue (steps chars.length) nestingLimit
    readEnd
    pure j
  (whole (Cursor.start chars)).map Prod.fst

/-- The members of the object that a text stands for. -/
def parseObject (text : String) : Except ReadError (Members Json) :=
  let chars := text.toList
  let whole : Reader Json := do
    match ← peekToken with
    | none => failNext .endInValue
    | some '\x7b' => do
      let j ← readValue (steps chars.length) nestingLimit
      readEnd
      pure j
    | some _ => failKind "a map"
  (whole (Cursor.start chars)).map (fun r => (r.1.members?).getD [])

end GraphShape.Json
