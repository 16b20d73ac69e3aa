import GraphShape.Sdl.Parser
import GraphShape.Sdl.Validity

/-!
# Type maps of schema documents

A document gives a type map when it parses, nothing in it is defined twice and its catalog is valid.
Scalars that are built in but nowhere used are left out, except those that introspection uses.
-/

namespace GraphShape

namespace Sdl

def TypeDecl.toTypeDef (d : TypeDecl) : TypeDef :=
  match d.body with
  | .scalar => .scalar d.name
  | .object _ fields =>
    .object ⟨d.name, d.description, fields.map (fun f => ⟨f.name, f.type, f.description⟩)⟩
  | .interface _ _ => .interface d.name
  | .union members => .union d.name members
  | .enum values => .enum d.name (values.map EnumValueDecl.name)
  | .input _ => .input d.name

def inputTypes (inputs : List InputDecl) : List String := inputs.map (fun i => i.type.innerName)

def fieldTypes (fields : List FieldDecl) : List String :=
  fields.flatMap (fun f => f.type.innerName :: inputTypes f.arguments)

/-- The types that fields and arguments of a type have. -/
def Body.usedTypes : Body → List String
  | .object _ fields => fieldTypes fields
  | .interface _ fields => fieldTypes fields
  | .input fields => inputTypes fields
  | _ => []

/-- The types that fields and arguments anywhere in a catalog have. -/
def Catalog.usedTypes (c : Catalog) : List String :=
  c.types.flatMap (fun d => d.2.body.usedTypes) ++
    c.directives.flatMap (fun d => inputTypes d.2.arguments)

def Catalog.toTypeMap (c : Catalog) : TypeMap :=
  let used := c.usedTypes
  (c.types.filter (fun d => !TypeMap.builtInScalars.contains d.1 || used.contains d.1)).map
    (fun d => (d.1, d.2.toTypeDef))

def Catalog.ofText? (document : String) : Option Catalog := do
  let definitions ← parse? document
  let c ← Catalog.assemble? definitions
  if c.isValid then some c else none

end Sdl

def TypeMap.ofDocument? (document : String) : Option TypeMap :=
  (Sdl.Catalog.ofText? document).map Sdl.Catalog.toTypeMap

end GraphShape
