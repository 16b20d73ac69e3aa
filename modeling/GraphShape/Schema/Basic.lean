import GraphShape.Json.Basic

/-!
# JSON Schemas

A schema is a truth value or keywords with their values. A keyword can be given to either: what
accepts everything has no keywords, and what accepts nothing is the negation of that.
-/

namespace GraphShape

inductive Schema where
  /-- Accepts everything, or nothing. -/
  | always (accepts : Bool)
  | keywords (members : List (String × Json))
  deriving Repr

namespace Schema

instance : Inhabited Schema := ⟨always true⟩

/-- The schema that a JSON value is. Only objects and truth values are schemas. -/
def ofJson? : Json → Option Schema
  | .bool b => some (always b)
  | .object ms => some (keywords ms)
  | _ => none

def toJson : Schema → Json
  | always b => .bool b
  | keywords ms => .object ms

/-- The same schema with its keywords spelt out. -/
def members : Schema → Members Json
  | always true => []
  | always false => [("not", .object [])]
  | keywords ms => ms

/-- Gives a keyword a value, in the place of an earlier one. -/
def put (s : Schema) (keyword : String) (value : Json) : Schema :=
  keywords (s.members.put keyword value)

/-- Gives a keyword a value unless it has one. -/
def putNew (s : Schema) (keyword : String) (value : Json) : Schema :=
  keywords (s.members.putNew keyword value)

def get? (s : Schema) (keyword : String) : Option Json :=
  match s with
  | always _ => none
  | keywords ms => Members.get? ms keyword

@[simp] theorem ofJson?_toJson (s : Schema) : ofJson? s.toJson = some s := by
  cases s <;> rfl

end Schema

end GraphShape
