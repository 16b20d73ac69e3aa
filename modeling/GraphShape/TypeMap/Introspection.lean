import GraphShape.TypeMap.Basic

/-!
# The introspection types

The types that every schema has: those that describe a schema, with the descriptions of the
GraphQL specification, and the scalars that are built in.
-/

namespace GraphShape.TypeMap

def introspectionSchema : ObjectType where
  name := "__Schema"
  description := some
    ("A GraphQL Schema defines the capabilities of a GraphQL server. It exposes all " ++
      "available types and directives on the server, as well as the entry points for " ++
      "query, mutation, and subscription operations.")
  fields := [
    ⟨"description", .named "String" false, none⟩,
    ⟨"types", .list (.named "__Type" true) true,
      some "A list of all types supported by this server."⟩,
    ⟨"queryType", .named "__Type" true,
      some "The type that query operations will be rooted at."⟩,
    ⟨"mutationType", .named "__Type" false,
      some ("If this server supports mutation, the type that mutation operations will be " ++
      "rooted at.")⟩,
    ⟨"subscriptionType", .named "__Type" false,
      some ("If this server support subscription, the type that subscription operations " ++
      "will be rooted at.")⟩,
    ⟨"directives", .list (.named "__Directive" true) true,
      some "A list of all directives supported by this server."⟩]

def introspectionType : ObjectType where
  name := "__Type"
  description := some
    ("The fundamental unit of any GraphQL Schema is the type. There are many kinds " ++
      "of types in GraphQL as represented by the `__TypeKind` enum.\n\nDepending on " ++
      "the kind of a type, certain fields describe information about that type. " ++
      "Scalar types provide no information beyond a name, description and optional " ++
      "`specifiedByURL`, while Enum types provide their values. Object and Interface " ++
      "types provide the fields they describe. Abstract types, Union and Interface, " ++
      "provide the Object types possible at runtime. List and NonNull types compose " ++
      "other types.")
  fields := [
    ⟨"kind", .named "__TypeKind" true, none⟩,
    ⟨"name", .named "String" false, none⟩,
    ⟨"description", .named "String" false, none⟩,
    ⟨"fields", .list (.named "__Field" true) false, none⟩,
    ⟨"interfaces", .list (.named "__Type" true) false, none⟩,
    ⟨"possibleTypes", .list (.named "__Type" true) false, none⟩,
    ⟨"enumValues", .list (.named "__EnumValue" true) false, none⟩,
    ⟨"inputFields", .list (.named "__InputValue" true) false, none⟩,
    ⟨"ofType", .named "__Type" false, none⟩,
    ⟨"specifiedByURL", .named "String" false, none⟩]

def typeKinds : List String :=
  ["SCALAR", "OBJECT", "INTERFACE", "UNION", "ENUM", "INPUT_OBJECT", "LIST", "NON_NULL"]

def introspectionField : ObjectType where
  name := "__Field"
  description := some
    ("Object and Interface types are described by a list of Fields, each of which " ++
      "has a name, potentially a list of arguments, and a return type.")
  fields := [
    ⟨"name", .named "String" true, none⟩,
    ⟨"description", .named "String" false, none⟩,
    ⟨"args", .list (.named "__InputValue" true) true, none⟩,
    ⟨"type", .named "__Type" true, none⟩,
    ⟨"isDeprecated", .named "Boolean" true, none⟩,
    ⟨"deprecationReason", .named "String" false, none⟩]

def introspectionInputValue : ObjectType where
  name := "__InputValue"
  description := some
    ("Arguments provided to Fields or Directives and the input fields of an " ++
      "InputObject are represented as Input Values which describe their type and " ++
      "optionally a default value.")
  fields := [
    ⟨"name", .named "String" true, none⟩,
    ⟨"description", .named "String" false, none⟩,
    ⟨"type", .named "__Type" true, none⟩,
    ⟨"defaultValue", .named "String" false,
      some ("A GraphQL-formatted string representing the default value for this input " ++
      "value.")⟩,
    ⟨"isDeprecated", .named "Boolean" true, none⟩,
    ⟨"deprecationReason", .named "String" false, none⟩]

def introspectionEnumValue : ObjectType where
  name := "__EnumValue"
  description := some
    ("One possible value for a given Enum. Enum values are unique values, not a " ++
      "placeholder for a string or numeric value. However an Enum value is returned " ++
      "in a JSON response as a string.")
  fields := [
    ⟨"name", .named "String" true, none⟩,
    ⟨"description", .named "String" false, none⟩,
    ⟨"isDeprecated", .named "Boolean" true, none⟩,
    ⟨"deprecationReason", .named "String" false, none⟩]

def introspectionDirective : ObjectType where
  name := "__Directive"
  description := some
    ("A Directive provides a way to describe alternate runtime execution and type " ++
      "validation behavior in a GraphQL document.\n\nIn some cases, you need to " ++
      "provide options to alter GraphQL's execution behavior in ways field arguments " ++
      "will not suffice, such as conditionally including or skipping a field. " ++
      "Directives provide this by describing additional information to the executor.")
  fields := [
    ⟨"name", .named "String" true, none⟩,
    ⟨"description", .named "String" false, none⟩,
    ⟨"locations", .list (.named "__DirectiveLocation" true) true, none⟩,
    ⟨"args", .list (.named "__InputValue" true) true, none⟩,
    ⟨"isRepeatable", .named "Boolean" true, none⟩]

def directiveLocations : List String :=
  ["QUERY", "MUTATION", "SUBSCRIPTION", "FIELD", "FRAGMENT_DEFINITION", "FRAGMENT_SPREAD",
    "INLINE_FRAGMENT", "VARIABLE_DEFINITION", "SCHEMA", "SCALAR", "OBJECT", "FIELD_DEFINITION",
    "ARGUMENT_DEFINITION", "INTERFACE", "UNION", "ENUM", "ENUM_VALUE", "INPUT_OBJECT",
    "INPUT_FIELD_DEFINITION"]

def builtInScalars : List String := ["Int", "Float", "String", "Boolean", "ID"]

/-- The definitions that every type map starts with. -/
def builtInDefs : List TypeDef :=
  [.object introspectionSchema,
    .object introspectionType,
    .enum "__TypeKind" typeKinds,
    .object introspectionField,
    .object introspectionInputValue,
    .object introspectionEnumValue,
    .object introspectionDirective,
    .enum "__DirectiveLocation" directiveLocations] ++
    builtInScalars.map .scalar

/-- The type map of a schema without types of its own. -/
def builtIn : TypeMap := ofDefs builtInDefs

end GraphShape.TypeMap
