import GraphShape.TypeMap.Basic

/-!
# Reference policies

A mention of an object type is either a component, spelt out in the definitions, or a collection
model, which stands for its identifier.
-/

namespace GraphShape

/-- Decides which object types are collection models. -/
abbrev Policy := ObjectType → Bool

namespace Policy

def idFieldName : String := "id"

/-- Object types that have a field are collection models. -/
def idField (name : String) : Policy := fun o => o.hasField name

/-- The policy when none is chosen. -/
def standard : Policy := idField idFieldName

/-- Every mention is spelt out. -/
def never : Policy := fun _ => false

/-- Every mention is an identifier. -/
def always : Policy := fun _ => true

/-- The object types of some names are collection models. -/
def ofNames (names : List String) : Policy := fun o => names.contains o.name

end Policy

end GraphShape
