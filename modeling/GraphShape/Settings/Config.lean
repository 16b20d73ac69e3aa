import GraphShape.Log.Level
import GraphShape.Policy
import GraphShape.Schema.Layout

/-!
# The configuration

Everything that can be set, with its defaults. The defaults name no schema, so a run without any
setting has nothing to convert.
-/

namespace GraphShape

inductive Rotation where
  | minutely
  | hourly
  | daily
  | never
  deriving DecidableEq, Repr

namespace Rotation

def all : List Rotation := [minutely, hourly, daily, never]

def name : Rotation → String
  | minutely => "minutely"
  | hourly => "hourly"
  | daily => "daily"
  | never => "never"

def ofName? (name : String) : Option Rotation := all.find? (fun r => r.name = name)

/-- The name as a title. -/
def title : Rotation → String
  | minutely => "Minutely"
  | hourly => "Hourly"
  | daily => "Daily"
  | never => "Never"

end Rotation

/-- Which object types are referenced by identifier. -/
structure CollectionModels where
  enabled : Bool := true
  idField : String := Policy.idFieldName
  deriving DecidableEq, Repr

/-- Object types with the identifier field, unless the policy is switched off. -/
def CollectionModels.policy (m : CollectionModels) : Policy :=
  fun o => m.enabled && Policy.idField m.idField o

structure Logging where
  level : Log.Level := .warn
  /-- The directory of the log files. Without one the log goes to standard error. -/
  path : Option String := none
  rotation : Rotation := .never
  deriving DecidableEq, Repr

structure Output where
  /-- The file of the document. Without one it goes to standard output. -/
  path : Option String := none
  pretty : Bool := true
  deriving DecidableEq, Repr

def Output.style (o : Output) : Json.Style := if o.pretty then .pretty else .compact

def Output.render (o : Output) (document : Schema) : String := document.render o.style

structure Config where
  collectionModels : CollectionModels := {}
  customScalars : Option String := none
  descriptions : Bool := false
  logging : Logging := {}
  output : Output := {}
  rootType : Option String := none
  schema : Option String := none
  deriving DecidableEq, Repr

namespace Config

/-- Nothing is set. -/
def standard : Config := {}

instance : Inhabited Config := ⟨standard⟩

end Config

end GraphShape
