import GraphShape.CommandLine.Arguments
import GraphShape.Conversion.Walk
import GraphShape.Files.Fault
import GraphShape.ScalarMap
import GraphShape.Settings.Loading

/-!
# Failures

Why a run fails, with what it says about it and its exit code. A failure that has causes lists
them below it, with numbers when there are several.

What the parsers of settings files and of schemas say about a text that they refuse is left out: the
two failures tell which file it was, and a fixed text stands where the diagnostics would.
-/

namespace GraphShape.CommandLine

/-- Where a value of the configuration comes from. -/
inductive Origin where
  | environment
  | file (name : String)
  deriving DecidableEq, Repr

namespace Origin

/-- The end of a complaint about the value at a path. -/
def text (o : Origin) (path : List String) : String :=
  let key (names : List String) :=
    if path.isEmpty then "" else " for key " ++ Text.quoted (".".intercalate names)
  match o with
  | environment =>
    key (path.map (fun name => name.map Char.toUpper)) ++
      " in `" ++ SettingTree.variablePrefix ++ "` environment variable(s)"
  | file name => key ("default" :: path) ++ " in " ++ name ++ " YAML file"

end Origin

inductive Failure where
  | arguments (p : ArgumentProblem)
  /-- The configuration file cannot be read. -/
  | configFile (name : String) (fault : FileFault)
  /-- The configuration file is no YAML mapping. The diagnostics are left out. -/
  | badConfigFile (name : String)
  | setting (p : SettingTree.Problem) (origin : Origin)
  | noSchema
  | schemaFile (path : String) (fault : FileFault)
  /-- The schema is refused. The diagnostics are left out. -/
  | invalidSchema (path : String)
  | scalarsFile (fault : FileFault)
  | scalars (p : ScalarMap.Problem)
  | conversion (s : Stop)
  | output (path : String) (fault : FileFault)

namespace Failure

/-- What is wrong, and the causes behind it. -/
def chain : Failure → String × List String
  | arguments p => (p.text, [])
  | configFile name fault => (fault.text ++ (Origin.file name).text [], [])
  | badConfigFile name => ("invalid mapping" ++ (Origin.file name).text [], [])
  | setting p origin => (p.fault.text ++ origin.text p.path, [])
  | noSchema => ("No schema path was configured", [])
  | schemaFile path fault => ("Failed to load " ++ path, [fault.refusal, fault.text])
  | invalidSchema path => ("Failed to load " ++ path, ["Could not parse GraphQL schema:"])
  | scalarsFile fault => (fault.refusal, [fault.text])
  | scalars p => (p.text, [])
  | conversion (.problem p) => (p.text, [])
  | conversion .tooDeep => ("Unions are nested too deeply", [])
  | output path fault => ("Failed to write " ++ path, [fault.text])

def causesText : List String → String
  | [] => ""
  | [cause] => "\n\nCaused by:\n    " ++ cause
  | causes =>
    "\n\nCaused by:" ++
      String.join (causes.mapIdx (fun i cause => "\n    " ++ toString i ++ ": " ++ cause))

def text (f : Failure) : String :=
  match f with
  | arguments p => p.text
  | _ => "Error: " ++ f.chain.1 ++ causesText f.chain.2

/-- Two for a call that cannot be followed, and one for everything else. -/
def code : Failure → UInt32
  | arguments _ => 2
  | _ => 1

end Failure

end GraphShape.CommandLine
