import GraphShape.Schema.Basic

/-!
# The closed vocabulary

The keywords that a custom scalar's schema may use. A schema stands at the top, under `items` and
`additionalProperties`, in the values of `properties` and in the elements of the three `Of`
keywords, and everywhere there it has to be a truth value or an object with known keywords.
-/

namespace GraphShape.Schema

def knownKeywords : List String :=
  ["$ref", "additionalProperties", "allOf", "anyOf", "const", "default", "description", "enum",
    "examples", "exclusiveMaximum", "exclusiveMinimum", "format", "items", "maxItems",
    "maxLength", "maximum", "minItems", "minLength", "minimum", "multipleOf", "oneOf", "pattern",
    "properties", "required", "title", "type", "uniqueItems"]

def isKnown (keyword : String) : Bool := knownKeywords.contains keyword

/-- The value itself is a schema. -/
def holdsSchema (keyword : String) : Bool :=
  keyword = "items" || keyword = "additionalProperties"

/-- The elements of an array are schemas. -/
def holdsList (keyword : String) : Bool :=
  keyword = "oneOf" || keyword = "anyOf" || keyword = "allOf"

/-- The values of an object are schemas. -/
def holdsNamed (keyword : String) : Bool := keyword = "properties"

mutual

/-- Whether some place of a schema holds no schema, or one with an unknown keyword. -/
def isForeign : Json → Bool
  | .bool _ => false
  | .object ms => someForeignMember ms
  | _ => true

/-- Some keyword is unknown, or some schema below one is foreign. -/
def someForeignMember : List (String × Json) → Bool
  | [] => false
  | (k, v) :: ms => !isKnown k || isForeignUnder k v || someForeignMember ms

/-- Some schema that the value of a keyword holds is foreign. -/
def isForeignUnder (keyword : String) : Json → Bool
  | .bool _ => false
  | .object ms =>
    if holdsNamed keyword then someForeignValue ms
    else holdsSchema keyword && someForeignMember ms
  | .array xs => if holdsList keyword then someForeignItem xs else holdsSchema keyword
  | _ => holdsSchema keyword

def someForeignValue : List (String × Json) → Bool
  | [] => false
  | (_, v) :: ms => isForeign v || someForeignValue ms

def someForeignItem : List Json → Bool
  | [] => false
  | x :: xs => isForeign x || someForeignItem xs

end

end GraphShape.Schema
