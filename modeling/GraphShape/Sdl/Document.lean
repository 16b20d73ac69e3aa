import GraphShape.TypeMap.Basic

/-!
# Schema documents

The definitions and extensions of a document, in order. An extension has the form of a
definition and adds to the one of its name.
-/

namespace GraphShape.Sdl

/-! ## Values and directives -/

inductive Value where
  | int (text : String)
  | float (text : String)
  | text (s : String)
  | bool (b : Bool)
  | null
  | enum (name : String)
  | list (items : List Value)
  | object (fields : List (String × Value))
  deriving Repr

structure DirectiveUse where
  name : String
  arguments : List (String × Value)
  deriving Repr

/-- Where directives may stand. -/
inductive Location where
  | query
  | mutation
  | subscription
  | field
  | fragmentDefinition
  | fragmentSpread
  | inlineFragment
  | variableDefinition
  | schema
  | scalar
  | object
  | fieldDefinition
  | argumentDefinition
  | interface
  | union
  | enum
  | enumValue
  | inputObject
  | inputFieldDefinition
  deriving DecidableEq, Repr

def Location.named : List (String × Location) :=
  [("QUERY", query), ("MUTATION", mutation), ("SUBSCRIPTION", subscription), ("FIELD", field),
    ("FRAGMENT_DEFINITION", fragmentDefinition), ("FRAGMENT_SPREAD", fragmentSpread),
    ("INLINE_FRAGMENT", inlineFragment), ("VARIABLE_DEFINITION", variableDefinition),
    ("SCHEMA", schema), ("SCALAR", scalar), ("OBJECT", object),
    ("FIELD_DEFINITION", fieldDefinition), ("ARGUMENT_DEFINITION", argumentDefinition),
    ("INTERFACE", interface), ("UNION", union), ("ENUM", enum), ("ENUM_VALUE", enumValue),
    ("INPUT_OBJECT", inputObject), ("INPUT_FIELD_DEFINITION", inputFieldDefinition)]

/-! ## Definitions -/

/-- An argument or a field of an input object. -/
structure InputDecl where
  name : String
  type : TypeRef
  default : Option Value
  directives : List DirectiveUse
  deriving Repr

structure FieldDecl where
  name : String
  description : Option String
  arguments : List InputDecl
  type : TypeRef
  directives : List DirectiveUse
  deriving Repr

structure EnumValueDecl where
  name : String
  directives : List DirectiveUse
  deriving Repr

inductive Body where
  | scalar
  | object (interfaces : List String) (fields : List FieldDecl)
  | interface (interfaces : List String) (fields : List FieldDecl)
  | union (members : List String)
  | enum (values : List EnumValueDecl)
  | input (fields : List InputDecl)
  deriving Repr

structure TypeDecl where
  name : String
  description : Option String
  directives : List DirectiveUse
  body : Body
  deriving Repr

structure DirectiveDecl where
  name : String
  arguments : List InputDecl
  repeatable : Bool
  locations : List Location
  deriving Repr

/-- The operations that a schema has a root type for. -/
inductive Operation where
  | query
  | mutation
  | subscription
  deriving DecidableEq, Repr

namespace Operation

def all : List Operation := [query, mutation, subscription]

def keyword : Operation → String
  | query => "query"
  | mutation => "mutation"
  | subscription => "subscription"

/-- The name of the root type when no schema definition names another. -/
def defaultRoot : Operation → String
  | query => "Query"
  | mutation => "Mutation"
  | subscription => "Subscription"

end Operation

structure SchemaDecl where
  directives : List DirectiveUse
  roots : List (Operation × String)
  deriving Repr

inductive Definition where
  | type (d : TypeDecl)
  | typeExtension (d : TypeDecl)
  | directive (d : DirectiveDecl)
  | schema (d : SchemaDecl)
  | schemaExtension (d : SchemaDecl)
  deriving Repr

end GraphShape.Sdl
