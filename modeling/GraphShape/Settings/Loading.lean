import GraphShape.Settings.TreeReading
import GraphShape.Yaml.Reading

/-!
# Loading a configuration

The environment wins over a file, setting by setting, and the file over the defaults.
-/

namespace GraphShape

inductive Config.Problem where
  /-- The file is not YAML or no mapping. -/
  | badFile
  | setting (p : SettingTree.Problem)
  deriving DecidableEq, Repr

namespace Config

/-- The tree of the environment joined with that of a file. -/
def sources (environment : Environment) (file : SettingTree) : SettingTree :=
  (SettingTree.ofEnvironment environment).join file

/-- The configuration of the environment and the text of a file, if there is one. -/
def load (environment : Environment) (file : Option String) : Except Problem Config :=
  match SettingTree.ofYaml? (file.getD "") with
  | none => .error .badFile
  | some tree => (Config.ofTree (sources environment tree)).mapError .setting

/-- Whether what is at a path comes from the environment. -/
def isFromEnvironment (environment : Environment) (path : List String) : Bool :=
  ((SettingTree.ofEnvironment environment).at? path).isSome

end Config

end GraphShape
