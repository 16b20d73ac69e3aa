import GraphShape.Json.Cursor
import GraphShape.Text.Quoted

/-!
# What a reading fault says

One text for each fault, followed by its line and column when these are known.
-/

namespace GraphShape.Json

/-- Names in backticks, joined by commas. -/
def nameList (names : List String) : String :=
  ", ".intercalate (names.map (fun n => "`" ++ n ++ "`"))

def Found.text : Found → String
  | null => "null"
  | bool true => "boolean `true`"
  | bool false => "boolean `false`"
  | number (.whole n) => "integer `" ++ String.ofList (wholeText n) ++ "`"
  | number (.double d) => "floating point `" ++ String.ofList (d.format doubleLayout) ++ "`"
  | string s => "string " ++ Text.quoted s
  | array => "sequence"
  | object => "map"

def Fault.text : Fault → String
  | endInList => "EOF while parsing a list"
  | endInObject => "EOF while parsing an object"
  | endInString => "EOF while parsing a string"
  | endInValue => "EOF while parsing a value"
  | expectedColon => "expected `:`"
  | expectedListEnd => "expected `,` or `]`"
  | expectedObjectEnd => "expected `,` or `\x7d`"
  | expectedIdent => "expected ident"
  | expectedValue => "expected value"
  | badEscape => "invalid escape"
  | badNumber => "invalid number"
  | outOfRange => "number out of range"
  | controlCharacter => "control character (\\u0000-\\u001F) found while parsing a string"
  | keyNotString => "key must be a string"
  | loneSurrogate => "lone leading surrogate in hex escape"
  | trailingComma => "trailing comma"
  | trailingCharacters => "trailing characters"
  | endOfHexEscape => "unexpected end of hex escape"
  | tooDeep => "recursion limit exceeded"
  | wrongKind found expected => "invalid type: " ++ found.text ++ ", expected " ++ expected
  | unknownVariant found expected =>
    "unknown variant `" ++ found ++ "`, expected one of " ++ nameList expected
  | duplicateField name => "duplicate field `" ++ name ++ "`"
  | other text => text

def ReadError.text (e : ReadError) : String :=
  match e.place with
  | none => e.fault.text
  | some (line, column) =>
    e.fault.text ++ " at line " ++ toString line ++ " column " ++ toString column

end GraphShape.Json
