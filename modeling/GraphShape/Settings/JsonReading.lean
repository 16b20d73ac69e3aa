import GraphShape.Json.Message
import GraphShape.Json.Skipping
import GraphShape.Settings.Setting

/-!
# Reading a configuration from JSON text

The text is read member by member, and each assigns a value to the setting of its name. A group
may also be an array of the values of its settings in order. A fault that shows only after a value
has been read, as a repeated name does, is reported where the object or array around it would
end.
-/

namespace GraphShape

open Json Json.Reader

/-- A value, or a fault whose place is still open. -/
abbrev Late (α : Type) := Except Json.Fault α

/-! ## Values -/

def readText (expected : String) : Reader String := do
  match ← peekToken with
  | none => failNext .endInValue
  | some '"' => readQuoted
  | some _ => failKind expected

/-- A null stands for no text. -/
def readOptional (expected : String) : Reader (Option String) := do
  match ← peekToken with
  | some 'n' => do skip; readLetters ['u', 'l', 'l']; pure none
  | _ => do let s ← readText expected; pure (some s)

def readFlag (expected : String) : Reader Bool := do
  match ← peekToken with
  | none => failNext .endInValue
  | some 't' => do skip; readLetters ['r', 'u', 'e']; pure true
  | some 'f' => do skip; readLetters ['a', 'l', 's', 'e']; pure false
  | some _ => failKind expected

def readLevel (expected : String) : Reader (Late Log.Level) := do
  let name ← readText expected
  match Log.Level.ofText? name with
  | some level => pure (.ok level)
  | none => pure (.error (.other Log.Level.refusal))

def readUnit : Reader Unit := do
  match ← peekToken with
  | none => failNext .endInValue
  | some 'n' => do skip; readLetters ['u', 'l', 'l']
  | some _ => failKind "unit"

def readRotationName : Reader Rotation := do
  let name ← readText "variant identifier"
  match Rotation.ofName? name with
  | some r => pure r
  | none => failHere (.unknownVariant name (Rotation.all.map Rotation.name))

/-- A rotation is its name, or an object with null under its name. -/
def readRotation : Reader Rotation := do
  match ← peekToken with
  | none => failNext .endInValue
  | some '"' => readRotationName
  | some '\x7b' => do
    skip
    let r ← readRotationName
    readColon
    readUnit
    match ← peekToken with
    | some '\x7d' => do skip; pure r
    | some _ => failHere .expectedValue
    | none => failHere .endInObject
  | some _ => failNext .expectedValue

def Kind.read (k : Kind) : Reader (Late k.Value) :=
  match k with
  | flag => do let b ← readFlag flag.expected; pure (.ok b)
  | text => do let s ← readText text.expected; pure (.ok s)
  | optionalText => do let s ← readOptional optionalText.expected; pure (.ok s)
  | optionalPath => do let s ← readOptional optionalPath.expected; pure (.ok s)
  | level => readLevel level.expected
  | rotation => do let r ← readRotation; pure (.ok r)

/-! ## Closing brackets -/

def pastObject (c : Cursor) : Cursor :=
  let c := skipBlanks c.rest.length c
  if c.rest.head? = some '\x7d' then c.advance else c

/-- Past the closing bracket or a comma, when one comes next. -/
def pastList (c : Cursor) : Cursor :=
  let c := skipBlanks c.rest.length c
  if c.rest.head? = some ']' then c.advance
  else if c.rest.head? = some ',' then skipBlanks c.rest.length c.advance
  else c

def closeObject : Reader Unit := do
  match ← peekToken with
  | some '\x7d' => skip
  | some ',' => failNext .trailingComma
  | some _ => failNext .trailingCharacters
  | none => failNext .endInObject

def closeList : Reader Unit := do
  match ← peekToken with
  | some ']' => skip
  | some ',' => do
    skip
    match ← peekToken with
    | some ']' => failNext .trailingComma
    | _ => failNext .trailingCharacters
  | some _ => failNext .trailingCharacters
  | none => failNext .endInList

/-- Closes an object or array, or reports a fault at its end. -/
def settle {α : Type} (close : Reader Unit) (past : Cursor → Cursor) (result : Late α) :
    Reader α :=
  match result with
  | .ok a => do close; pure a
  | .error fault => fun c => .error ⟨fault, some (past c).here⟩

/-! ## Groups -/

abbrev SettingReaders := Members (Config → Reader (Late Config))

namespace SettingReaders

/-- Reads members up to the closing brace. The first argument bounds their number. -/
def readMembers (readers : SettingReaders) :
    Nat → Bool → List String → Config → Reader (Late Config)
  | 0, _, _, _ => failNext .endInObject
  | n + 1, first, seen, c => do
    if ← hasMember first then do
      let name ← readQuoted
      match readers.get? name with
      | none => do
        readColon
        skipValue (steps n)
        readMembers readers n false seen c
      | some read =>
        if seen.contains name then pure (.error (.duplicateField name))
        else do
          readColon
          match ← read c with
          | .error fault => pure (.error fault)
          | .ok c => readMembers readers n false (name :: seen) c
    else pure (.ok c)

/-- Reads items, each with the next reader, as long as there are both. -/
def readItems : SettingReaders → Bool → Config → Reader (Late Config)
  | [], _, c => pure (.ok c)
  | (_, read) :: readers, first, c => do
    if ← hasItem first then do
      match ← read c with
      | .error fault => pure (.error fault)
      | .ok c => readItems readers false c
    else pure (.ok c)

/-- Reads an object or an array with a reader for each name. -/
def read (readers : SettingReaders) (expected : String) (c : Config) : Reader Config := do
  match ← peekToken with
  | none => failNext .endInValue
  | some '\x7b' => do
    skip
    let result ← fun cursor => readMembers readers (cursor.rest.length + 1) true [] c cursor
    settle closeObject pastObject result
  | some '[' => do
    skip
    let result ← readItems readers true c
    settle closeList pastList result
  | some _ => failKind expected

end SettingReaders

def Setting.read (s : Setting) (c : Config) : Reader (Late Config) := do
  let value ← s.kind.read
  pure (value.map (fun v => s.assign v c))

def SettingGroup.read (g : SettingGroup) (c : Config) : Reader Config :=
  SettingReaders.read (g.settings.map (fun s => (s.name, s.read))) g.expected c

def Entry.read (e : Entry) (c : Config) : Reader (Late Config) :=
  match e with
  | .setting s => s.read c
  | .group _ _ g => do let c ← g.read c; pure (.ok c)

/-- The configuration that a JSON text gives. What it does not set has its default. -/
def Config.parse (text : String) : Except ReadError Config :=
  let whole : Reader Config := do
    let c ← SettingReaders.read (Config.entries.map (fun e => (e.name, e.read))) Config.expected
      Config.standard
    readEnd
    pure c
  (whole (Cursor.start text.toList)).map Prod.fst

/-! ## Values that are already read -/

def Json.found : Json → Found
  | .null => .null
  | .bool b => .bool b
  | .number n => .number n
  | .string s => .string s
  | .array _ => .array
  | .object _ => .object

/-- The policy for collection models that members of a JSON object give. -/
def CollectionModels.ofMembers (ms : Members Json) : Except ReadError CollectionModels := do
  let enabled ← match ms.get? "enabled" with
    | none => .ok true
    | some (.bool b) => .ok b
    | some j => .error ⟨.wrongKind j.found Kind.flag.expected, none⟩
  let idField ← match ms.get? "id_field" with
    | none => .ok Policy.idFieldName
    | some (.string s) => .ok s
    | some j => .error ⟨.wrongKind j.found Kind.text.expected, none⟩
  .ok ⟨enabled, idField⟩

end GraphShape
