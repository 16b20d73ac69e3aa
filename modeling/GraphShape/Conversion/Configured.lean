import GraphShape.Conversion.Document
import GraphShape.Settings.Config

/-!
# Configured conversions

The conversion that a configuration asks for: one root when it names one, and every object type
otherwise.
-/

namespace GraphShape.Config

def converter (c : Config) (types : TypeMap) (scalars : Option ScalarMap) : Converter :=
  ⟨types, c.collectionModels.policy, scalars, c.descriptions⟩

def conversion (c : Config) (types : TypeMap) (scalars : Option ScalarMap) : Traced Schema :=
  match c.rootType with
  | some name => (c.converter types scalars).convertNamed name
  | none => (c.converter types scalars).definitions

end GraphShape.Config
