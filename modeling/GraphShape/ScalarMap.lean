import GraphShape.Json.Message
import GraphShape.Json.Reader
import GraphShape.Schema.Vocabulary

/-!
# Schemas of custom scalars

A JSON object with a schema under each scalar's name. The first definition, in the order of the
names, that goes beyond the vocabulary refuses the whole map.
-/

namespace GraphShape

/-- Schemas under the names of scalars. -/
abbrev ScalarMap := Members Schema

namespace ScalarMap

inductive Problem where
  | notAnObject (e : Json.ReadError)
  | badDefinition (definition : Json)
  deriving Repr

def Problem.text : Problem → String
  | notAnObject e => "Invalid custom scalar config: " ++ e.text
  | badDefinition definition => "Invalid custom scalar schema: " ++ definition.compactText

def readDefinition (definition : Json) : Except Problem Schema :=
  if Schema.isForeign definition then .error (.badDefinition definition)
  else
    match Schema.ofJson? definition with
    | some s => .ok s
    | none => .error (.badDefinition definition)

/-- One definition after the other. -/
def ofMembers : List (String × Json) → Except Problem ScalarMap
  | [] => .ok []
  | (name, definition) :: rest =>
    match readDefinition definition with
    | .error e => .error e
    | .ok s =>
      match ofMembers rest with
      | .error e => .error e
      | .ok ms => .ok ((name, s) :: ms)

def parse (text : String) : Except Problem ScalarMap :=
  match Json.parseObject text with
  | .error e => .error (.notAnObject e)
  | .ok ms => ofMembers ms

end ScalarMap

end GraphShape
