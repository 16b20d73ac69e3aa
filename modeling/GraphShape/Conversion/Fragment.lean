import GraphShape.Conversion.Walk
import GraphShape.Policy
import GraphShape.ScalarMap

/-!
# The schema of a type reference

A list wraps the schema of its items, a union lists the schemas of its members, and an object
type is mentioned and stands for its definition or its identifier. Object types are never
entered, so only lists and unions nest.
-/

namespace GraphShape

/-- What a conversion looks up. -/
structure Converter where
  types : TypeMap
  policy : Policy
  scalars : Option ScalarMap
  descriptions : Bool

/-- The primitive types of the scalars that are built in. -/
def primitiveTypes : Members String :=
  [("Boolean", "boolean"), ("Float", "number"), ("ID", "string"), ("Int", "number"),
    ("String", "string")]

/-- Where a definition stands in a document. -/
def definitionPointer (name : String) : String := "#/$defs/" ++ name

namespace Schema

/-- The identifier of a collection model. -/
def identifier (typeName : String) : Schema :=
  keywords [("type", .string "string"), ("title", .string (typeName ++ "_id"))]

/-- A reference to a component's definition. -/
def reference (typeName : String) : Schema :=
  keywords [("$ref", .string (definitionPointer typeName))]

def oneOf (choices : List Schema) : Schema :=
  keywords [("oneOf", .array (choices.map toJson))]

def primitive (type : String) : Schema := keywords [("type", .string type)]

def enumeration (name : String) (values : List String) : Schema :=
  keywords [("type", .string "string"), ("enum", Json.strings values), ("title", .string name)]

def null : Schema := keywords [("type", .string "null"), ("title", .string "Null")]

def array (items : Schema) : Schema :=
  keywords [("type", .string "array"), ("items", items.toJson)]

/-- No constraint. -/
def empty : Schema := keywords []

/-- The schema of an item that may also be null unless that is excluded. -/
def item (nonNull : Bool) (s : Schema) : Schema := if nonNull then s else oneOf [null, s]

end Schema

namespace Converter

/-- A mention of an object type. -/
def mentioned (c : Converter) (o : ObjectType) : Schema :=
  if c.policy o then Schema.identifier o.name else Schema.reference o.name

/-- A scalar that is built in has its primitive type. Any other has its schema from the map. -/
def scalar (c : Converter) (name : String) : Walk Schema :=
  match primitiveTypes.get? name with
  | some type => pure (Schema.primitive type)
  | none =>
    match c.scalars with
    | none => do
      Walk.report (.scalarUnconstrained name)
      pure Schema.empty
    | some map =>
      match map.get? name with
      | some s => pure s
      | none => do
        Walk.report (.scalarMissing name)
        pure Schema.empty

/-- The schema of a type reference. The first argument bounds the nesting that is followed. -/
def fragment (c : Converter) : Nat → TypeRef → Walk Schema
  | 0, _ => Walk.stop .tooDeep
  | depth + 1, .list item _ => do
    let s ← fragment c depth item
    pure (Schema.array (Schema.item item.nonNull s))
  | depth + 1, .named name _ =>
    match c.types.get? name with
    | some (.object o) => do
      Walk.mention o
      pure (c.mentioned o)
    | some (.union _ members) => do
      let choices ← Walk.each (fun member => fragment c depth (.named member false)) members
      pure (Schema.oneOf choices)
    | some (.scalar _) => c.scalar name
    | some (.enum name values) => pure (Schema.enumeration name values)
    | some (.interface _) => Walk.fail (.unsupportedKind name "interface")
    | some (.input _) => Walk.fail (.unsupportedKind name "input object")
    | none => Walk.fail (.unknownType name)

end Converter

end GraphShape
