import GraphShape.Json.Reader

/-!
# Skipping values

A value that nobody asks for is still checked, but more loosely than one that is read: numbers may
have any size, halves of surrogate pairs may stand alone and nothing nests too deep.
-/

namespace GraphShape.Json

open Reader

/-- Steps over the rest of a string after its opening quote. -/
def skipChars : Nat → Reader Unit
  | 0 => failHere .endInString
  | n + 1 => do
    match ← peek with
    | none => failHere .endInString
    | some '"' => skip
    | some '\\' => do
      skip
      match ← peek with
      | none => failHere .endInString
      | some 'u' => do skip; let _ ← readHex
      | some ch =>
        if ['"', '\\', '/', 'b', 'f', 'n', 'r', 't'].contains ch then skip
        else failNext .badEscape
      skipChars n
    | some ch => if ch.toNat < 32 then failHere .controlCharacter else do skip; skipChars n

def skipQuoted : Reader Unit := do
  skip
  fun c => skipChars (c.rest.length + 1) c

/-- Steps over digits, of which there has to be one. -/
def skipDigits : Reader Unit := do
  let digits ← peekDigits
  if digits.isEmpty then failNext .badNumber else skipMany digits.length

def skipExponent : Reader Unit := do
  match ← peek with
  | some 'e' | some 'E' => do
    skip
    match ← peek with
    | some '+' | some '-' => skip
    | _ => pure ()
    skipDigits
  | _ => pure ()

def skipNumber : Reader Unit := do
  match ← peek with
  | some '0' => do
    skip
    match ← peek with
    | some ch => if isDigit ch then failNext .badNumber else pure ()
    | none => pure ()
  | _ => skipDigits
  match ← peek with
  | some '.' => do skip; skipDigits
  | _ => pure ()
  skipExponent

mutual

/-- Steps over a value. The first argument bounds the steps. -/
def skipValue : Nat → Reader Unit
  | 0 => failNext .endInValue
  | n + 1 => do
    match ← peekToken with
    | none => failNext .endInValue
    | some 'n' => do skip; readLetters ['u', 'l', 'l']
    | some 't' => do skip; readLetters ['r', 'u', 'e']
    | some 'f' => do skip; readLetters ['a', 'l', 's', 'e']
    | some '-' => do skip; skipNumber
    | some '"' => skipQuoted
    | some '[' => do
      skip
      match ← peekToken with
      | some ']' => skip
      | none => failNext .endInList
      | some _ => skipItems n
    | some '\x7b' => do
      skip
      match ← peekToken with
      | some '\x7d' => skip
      | none => failNext .endInObject
      | some _ => skipMembers n
    | some ch => if isDigit ch then skipNumber else failNext .expectedValue

/-- Steps over an item, those after it and the closing bracket. -/
def skipItems : Nat → Reader Unit
  | 0 => failNext .endInList
  | n + 1 => do
    skipValue n
    match ← peekToken with
    | some ',' => do skip; skipItems n
    | some ']' => skip
    | some _ => failNext .expectedListEnd
    | none => failNext .endInList

/-- Steps over a member, those after it and the closing brace. -/
def skipMembers : Nat → Reader Unit
  | 0 => failNext .endInObject
  | n + 1 => do
    match ← peekToken with
    | some '"' => skipQuoted
    | some _ => failNext .keyNotString
    | none => failNext .endInObject
    readColon
    skipValue n
    match ← peekToken with
    | some ',' => do skip; skipMembers n
    | some '\x7d' => skip
    | some _ => failNext .expectedObjectEnd
    | none => failNext .endInObject

end

end GraphShape.Json
