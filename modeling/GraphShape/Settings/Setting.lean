import GraphShape.Settings.Config

/-!
# Settings

The configuration as a list of settings, each with a name, a kind of value and what the value
does to a configuration. Whatever reads or describes a configuration goes by this list.
-/

namespace GraphShape

inductive Kind where
  | flag
  | text
  | optionalText
  | optionalPath
  | level
  | rotation
  deriving DecidableEq, Repr

abbrev Kind.Value : Kind → Type
  | flag => Bool
  | text => String
  | optionalText => Option String
  | optionalPath => Option String
  | level => Log.Level
  | rotation => Rotation

/-- What a complaint says was expected. -/
def Kind.expected : Kind → String
  | flag => "a boolean"
  | text => "a string"
  | optionalText => "a string"
  | optionalPath => "path string"
  | level => "a string"
  | rotation => "enum LogRotation"

structure Setting where
  name : String
  description : String
  kind : Kind
  /-- The configuration with a value for the setting. -/
  assign : kind.Value → Config → Config
  /-- The value in a configuration. -/
  value : Config → kind.Value

structure SettingGroup where
  title : String
  description : String
  settings : List Setting

/-- A setting by itself, or a name for a group. -/
inductive Entry where
  | setting (s : Setting)
  | group (name description : String) (s : SettingGroup)

namespace Entry

def name : Entry → String
  | setting s => s.name
  | .group name _ _ => name

end Entry

/-- What a complaint says was expected in the place of a group. -/
def SettingGroup.expected (s : SettingGroup) : String := "struct " ++ s.title

namespace Config

/-! ## The groups -/

def collectionModelsGroup : SettingGroup where
  title := "CollectionModels"
  description := "Policy for referencing object types by identifier"
  settings := [
    { name := "enabled"
      description := "Reference object types that declare the identifier field by a string id. " ++
        "When disabled,\nevery reference to an object type points at its definition"
      kind := .flag
      assign := fun v c => { c with collectionModels.enabled := v }
      value := fun c => c.collectionModels.enabled },
    { name := "id_field"
      description := "Name of the identifier field"
      kind := .text
      assign := fun v c => { c with collectionModels.idField := v }
      value := fun c => c.collectionModels.idField }]

def loggingGroup : SettingGroup where
  title := "Logging"
  description := "Logging related options"
  settings := [
    { name := "level"
      description := "The most verbose level that gets logged"
      kind := .level
      assign := fun v c => { c with logging.level := v }
      value := fun c => c.logging.level },
    { name := "path"
      description := "Directory for log files. Logs go to stderr when unset"
      kind := .optionalPath
      assign := fun v c => { c with logging.path := v }
      value := fun c => c.logging.path },
    { name := "rotation"
      description := "How often a new log file is started"
      kind := .rotation
      assign := fun v c => { c with logging.rotation := v }
      value := fun c => c.logging.rotation }]

def outputGroup : SettingGroup where
  title := "Output"
  description := "Output options for the generated document"
  settings := [
    { name := "path"
      description := "File to write the document to. The document is printed to stdout when unset"
      kind := .optionalPath
      assign := fun v c => { c with output.path := v }
      value := fun c => c.output.path },
    { name := "pretty"
      description := "Pretty-print the document"
      kind := .flag
      assign := fun v c => { c with output.pretty := v }
      value := fun c => c.output.pretty }]

/-! ## The whole -/

def entries : List Entry := [
  .group "collection_models"
    "Which object types are referenced by identifier rather than by definition"
    collectionModelsGroup,
  .setting
    { name := "custom_scalars"
      description := "Path to a custom scalar map"
      kind := .optionalPath
      assign := fun v c => { c with customScalars := v }
      value := customScalars },
  .setting
    { name := "descriptions"
      description := "Copy type and field descriptions from the GraphQL schema"
      kind := .flag
      assign := fun v c => { c with descriptions := v }
      value := descriptions },
  .group "logging" "Logging configuration" loggingGroup,
  .group "output" "Where and how to write the generated document" outputGroup,
  .setting
    { name := "root_type"
      description := "The object type to convert. Every object type is converted into a " ++
        "definition when unset"
      kind := .optionalText
      assign := fun v c => { c with rootType := v }
      value := rootType },
  .setting
    { name := "schema"
      description := "Path to the GraphQL schema to convert"
      kind := .optionalPath
      assign := fun v c => { c with schema := v }
      value := schema }]

/-- What a complaint says was expected in the place of a configuration. -/
def expected : String := "struct Config"

end Config

end GraphShape
