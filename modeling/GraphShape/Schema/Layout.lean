import GraphShape.Json.Writer
import GraphShape.Schema.Basic

/-!
# The order of keywords

A schema is written with a few keywords in front and its definitions at the end; the others keep
their order. The keys of an object that names schemas keep theirs, and values that are no schemas
are left alone.
-/

namespace GraphShape.Schema

/-- The keywords that come first, in their order. -/
def leading : List String :=
  ["$id", "$schema", "title", "description", "type", "format", "properties"]

/-- The keywords that come last, in their order. -/
def trailing : List String := ["$defs", "definitions"]

def rank (keyword : String) : Nat :=
  match leading.idxOf? keyword with
  | some i => i
  | none =>
    match trailing.idxOf? keyword with
    | some i => leading.length + 1 + i
    | none => leading.length

/-- The values of the keyword are written as they are. -/
def isVerbatim (keyword : String) : Bool :=
  keyword = "examples" || keyword = "default" || keyword.startsWith "x-"

/-- The keys of the keyword's value are names of schemas. -/
def namesSchemas (keyword : String) : Bool :=
  ["properties", "patternProperties", "dependentSchemas", "$defs", "definitions"].contains keyword

/-- Members by the rank of their key, those of one rank in their own order. -/
def sortMembers (ms : List (String × Json)) : List (String × Json) :=
  (List.range (leading.length + 1 + trailing.length)).flatMap
    (fun r => ms.filter (fun m => rank m.1 == r))

mutual

def arrange : Json → Json
  | .object ms => .object (sortMembers (arrangeMembers ms))
  | .array xs => .array (arrangeItems xs)
  | j => j

/-- Each member's value arranged as its keyword demands. -/
def arrangeMembers : List (String × Json) → List (String × Json)
  | [] => []
  | (k, v) :: ms => (k, arrangeUnder k v) :: arrangeMembers ms

def arrangeUnder (keyword : String) : Json → Json
  | .object ms =>
    if isVerbatim keyword then .object ms
    else if namesSchemas keyword then .object (arrangeValues ms)
    else .object (sortMembers (arrangeMembers ms))
  | .array xs => if isVerbatim keyword then .array xs else .array (arrangeItems xs)
  | j => j

/-- Each value arranged as a schema, the keys in their order. -/
def arrangeValues : List (String × Json) → List (String × Json)
  | [] => []
  | (k, v) :: ms => (k, arrange v) :: arrangeValues ms

def arrangeItems : List Json → List Json
  | [] => []
  | x :: xs => arrange x :: arrangeItems xs

end

def render (style : Json.Style) (s : Schema) : String := (arrange s.toJson).text style

end GraphShape.Schema
