import GraphShape.Conversion.Walk
import GraphShape.Log.Record

/-!
# What a conversion logs

One record for each event. A scalar that the map forgot is a warning, since its values go
unchecked; everything else is detail.
-/

namespace GraphShape

def documentSource : String := "graphql_json_schema::json_schema"

def scalarSource : String := "graphql_json_schema::schema_walker::scalar"

/-- The record of an event. Names of scalars are quoted. -/
def Event.record : Event → Log.Record
  | .converting typeName =>
    ⟨.debug, documentSource, "Converting object type", [("type_name", typeName)]⟩
  | .converted count =>
    ⟨.debug, documentSource, "Converted " ++ toString count ++ " object types", []⟩
  | .scalarMissing name =>
    ⟨.warn, scalarSource, "custom scalar missing from custom_scalar_map",
      [("name", Text.quoted name)]⟩
  | .scalarUnconstrained name =>
    ⟨.debug, scalarSource, "custom scalar left unconstrained", [("name", Text.quoted name)]⟩

end GraphShape
