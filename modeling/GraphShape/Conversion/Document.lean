import GraphShape.Conversion.Shape

/-!
# Documents

A document defines every object type of the map, or one root and what it reaches. The types that
a root reaches are found breadth first: the next type to walk is always the first one mentioned
that has no definition yet, so each is walked once, also when types refer to each other.
-/

namespace GraphShape

def definitionsKey : String := "$defs"

/-- Object types in the order of their first mention. -/
abbrev References := Members ObjectType

namespace References

/-- Starts with a root. -/
def seeded (root : ObjectType) : References := [(root.name, root)]

/-- Adds what is mentioned for the first time. -/
def record (references : References) (mentions : List ObjectType) : References :=
  mentions.foldl (fun rs o => Members.putNew rs o.name o) references

end References

/-- Events and a result or a stop. -/
structure Traced (α : Type) where
  events : List Event
  outcome : Except Stop α

/-- How far a conversion from a root has come. -/
structure Progress where
  references : References
  definitions : Members Schema

namespace Converter

/-- The deepest nesting of lists in the fields of an object type. -/
def nesting (o : ObjectType) : Nat := (o.fields.map (fun f => f.type.nesting)).foldl max 0

/-- A nesting that no walk exceeds unless a union contains itself. -/
def depth (c : Converter) (root : Option ObjectType) : Nat :=
  c.types.length + ((root.toList ++ c.types.objects).map nesting).foldl max 0 + 2

/-! ## Every object type -/

def defineAll (c : Converter) (depth : Nat) :
    List (String × TypeDef) → Members Schema → Traced (Members Schema)
  | [], definitions => ⟨[.converted definitions.length], .ok definitions⟩
  | (name, d) :: rest, definitions =>
    match d with
    | .object o =>
      let walk := c.shape depth o
      match walk.outcome with
      | .error s => ⟨.converting name :: walk.events, .error s⟩
      | .ok s =>
        let later := defineAll c depth rest (definitions.put name s)
        ⟨.converting name :: (walk.events ++ later.events), later.outcome⟩
    | _ => defineAll c depth rest definitions

def definitionsJson (definitions : Members Schema) : Json :=
  .object (definitions.map (fun m => (m.1, m.2.toJson)))

/-- The document that defines every object type of the map. -/
def definitions (c : Converter) : Traced Schema :=
  let run := c.defineAll (c.depth none) c.types []
  ⟨run.events, run.outcome.map (fun ds => .keywords [(definitionsKey, definitionsJson ds)])⟩

/-! ## A root and what it reaches -/

/-- Walks the first reference without a definition, until there is none. The first argument
bounds the walks. -/
def discover (c : Converter) (depth : Nat) : Nat → Progress → Traced Progress
  | 0, _ => ⟨[], .error .tooDeep⟩
  | n + 1, progress =>
    match progress.references[progress.definitions.length]? with
    | none => ⟨[.converted progress.references.length], .ok progress⟩
    | some (_, o) =>
      let walk := c.shape depth o
      match walk.outcome with
      | .error s => ⟨.converting o.name :: walk.events, .error s⟩
      | .ok s =>
        let later := discover c depth n
          ⟨progress.references.record walk.mentions, progress.definitions.put o.name s⟩
        ⟨.converting o.name :: (walk.events ++ later.events), later.outcome⟩

/-- The first definition is the document, and it holds the others. -/
def assemble (definitions : Members Schema) : Schema :=
  match definitions with
  | [] => (Schema.keywords []).put definitionsKey (.object [])
  | (_, root) :: rest => root.put definitionsKey (definitionsJson rest)

/-- The document of a root. -/
def convert (c : Converter) (root : ObjectType) : Traced Schema :=
  let run := c.discover (c.depth (some root)) (c.types.objects.length + 2)
    ⟨References.seeded root, []⟩
  ⟨run.events, run.outcome.map (fun progress => assemble progress.definitions)⟩

def convertNamed (c : Converter) (name : String) : Traced Schema :=
  match c.types.get? name with
  | some (.object o) => c.convert o
  | some _ => ⟨[], .error (.problem (.notAnObjectType name))⟩
  | none => ⟨[], .error (.problem (.unknownType name))⟩

/-- A converter that only has types and a policy. -/
def plain (types : TypeMap) (policy : Policy) : Converter := ⟨types, policy, none, false⟩

end Converter

end GraphShape
