import GraphShape.Conversion.Fragment

/-!
# The shape of an object type

One property a field, titled with the field's name, and one that holds the type's own name. A
field is required exactly when its own type excludes null.
-/

namespace GraphShape

/-- The property that holds the name of an object's type. -/
def typenameProperty : String := "__typename"

namespace Schema

/-- The schema of a type's own name. -/
def typename (name : String) : Schema :=
  keywords [("const", .string name), ("title", .string typenameProperty)]

def shape (properties : Members Json) (required : List String) : Schema :=
  keywords [("type", .string "object"), ("properties", .object properties),
    ("required", Json.strings required)]

end Schema

namespace Converter

/-- A description is added when descriptions are wanted and there is one, unless the schema brings
its own. -/
def describe (c : Converter) (description : Option String) (s : Schema) : Schema :=
  match c.descriptions, description with
  | true, some text => s.putNew "description" (.string text)
  | _, _ => s

def property (c : Converter) (depth : Nat) (f : Field) : Walk Schema := do
  let s ← c.fragment depth f.type
  pure (c.describe f.description (s.put "title" (.string f.name)))

/-- The names of the fields whose own type excludes null. -/
def requiredNames (fields : List Field) : List String :=
  (fields.filter (fun f => f.type.nonNull)).map Field.name

/-- The properties of an object type, from the schemas of its fields. -/
def properties (o : ObjectType) (schemas : List Schema) : Members Json :=
  (Members.ofList (List.zipWith (fun (f : Field) s => (f.name, s.toJson)) o.fields schemas)).put
    typenameProperty (Schema.typename o.name).toJson

def shape (c : Converter) (depth : Nat) (o : ObjectType) : Walk Schema := do
  let schemas ← Walk.each (c.property depth) o.fields
  pure (c.describe o.description (Schema.shape (properties o schemas) (requiredNames o.fields)))

end Converter

end GraphShape
