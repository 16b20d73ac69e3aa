import GraphShape.Conversion.Fragment
import GraphShape.Settings.Setting

/-!
# The published schema of the configuration

The JSON Schema of configuration files. It is made from the list of settings, so it names exactly
the settings that are read.
-/

namespace GraphShape

def dialect : String := "https://json-schema.org/draft/2020-12/schema"

/-- The keywords for the values of a kind, with the default where it is written in place. -/
def Kind.keywords (k : Kind) (default : k.Value) : Members Json :=
  match k, default with
  | flag, b => [("type", .string "boolean"), ("default", .bool b)]
  | text, s => [("type", .string "string"), ("default", .string s)]
  | optionalText, s => [("type", Json.strings ["string", "null"]), ("default", optionalJson s)]
  | optionalPath, s => [("type", Json.strings ["string", "null"]), ("default", optionalJson s)]
  | level, _ => [("$ref", .string (definitionPointer "LevelName"))]
  | rotation, _ => [("$ref", .string (definitionPointer "LogRotation"))]
where
  optionalJson (s : Option String) : Json := (s.map Json.string).getD .null

def namesSchema (description : String) (names : List String) : Json :=
  .object [("description", .string description), ("type", .string "string"),
    ("enum", Json.strings names)]

/-- The definitions that the values of a kind refer to. -/
def Kind.definitions : Kind → Members Json
  | level =>
    [("LevelName", namesSchema
      "Level names as documented in the config schema. Parsing accepts any case"
      (Log.Level.all.reverse.map Log.Level.name))]
  | rotation =>
    [("LogRotation", namesSchema "Rotation period of log files" (Rotation.all.map Rotation.name))]
  | _ => []

def Setting.schema (s : Setting) : Json :=
  .object (("description", .string s.description) :: s.kind.keywords (s.value Config.standard))

def SettingGroup.schema (g : SettingGroup) : Json :=
  .object [("description", .string g.description), ("type", .string "object"),
    ("properties", .object (g.settings.map (fun s => (s.name, s.schema))))]

/-- The definition of a group and those that its settings refer to. -/
def SettingGroup.definitions (g : SettingGroup) : Members Json :=
  (g.title, g.schema) :: g.settings.flatMap (fun s => s.kind.definitions)

def Entry.schema : Entry → Json
  | .setting s => s.schema
  | .group _ description g =>
    .object [("description", .string description), ("$ref", .string (definitionPointer g.title))]

def Entry.definitions : Entry → Members Json
  | .setting s => s.kind.definitions
  | .group _ _ g => g.definitions

def Config.publishedSchema : Schema :=
  .keywords [("$schema", .string dialect), ("title", .string "Config"),
    ("description", .string "Configuration for a conversion"), ("type", .string "object"),
    ("properties", .object (Config.entries.map (fun e => (e.name, e.schema)))),
    ("$defs", .object (Config.entries.flatMap Entry.definitions))]

end GraphShape
