import GraphShape.Sdl.Document
import GraphShape.TypeMap.Introspection

/-!
# Catalogs

A catalog is what a document defines: each type with its extensions, the directives and the root
types. Extensions may stand in front of the definition that they add to, and what they bring
follows what the definition has. Assembling fails when a name is defined twice, when an extension
has nothing to add to, or when it follows a definition of another kind. In front of one it is lost.
-/

namespace GraphShape.Sdl

structure Catalog where
  /-- By name, those of introspection and the scalars that are built in first. -/
  types : Members TypeDecl
  directives : Members DirectiveDecl
  schemaDirectives : List DirectiveUse
  roots : List (Operation × String)
  deriving Repr

/-! ## What is built in -/

/-- The fields of introspection that take an argument, by the type that has them. -/
def selectiveFields : List (String × String) :=
  [("__Type", "fields"), ("__Type", "enumValues"), ("__Type", "inputFields"),
    ("__Field", "args"), ("__Directive", "args")]

def builtInArguments (type field : String) : List InputDecl :=
  if selectiveFields.contains (type, field) then
    [⟨"includeDeprecated", .named "Boolean" false, some (.bool false), []⟩]
  else []

def TypeDecl.ofBuiltIn : TypeDef → TypeDecl
  | .object o =>
    ⟨o.name, o.description, [], .object [] (o.fields.map (fun f =>
      ⟨f.name, f.description, builtInArguments o.name f.name, f.type, []⟩))⟩
  | .enum n values => ⟨n, none, [], .enum (values.map (fun v => ⟨v, []⟩))⟩
  | d => ⟨d.name, none, [], .scalar⟩

def builtInTypes : Members TypeDecl :=
  TypeMap.builtInDefs.map (fun d => (d.name, TypeDecl.ofBuiltIn d))

/-- The declaration of an argument that needs no default. -/
def plainInput (name : String) (type : TypeRef) : InputDecl := ⟨name, type, none, []⟩

def builtInDirectives : List DirectiveDecl :=
  [⟨"skip", [plainInput "if" (.named "Boolean" true)], false,
      [.field, .fragmentSpread, .inlineFragment]⟩,
    ⟨"include", [plainInput "if" (.named "Boolean" true)], false,
      [.field, .fragmentSpread, .inlineFragment]⟩,
    ⟨"deprecated",
      [⟨"reason", .named "String" false, some (.text "No longer supported"), []⟩], false,
      [.fieldDefinition, .argumentDefinition, .inputFieldDefinition, .enumValue]⟩,
    ⟨"specifiedBy", [plainInput "url" (.named "String" true)], false, [.scalar]⟩]

def isBuiltIn (name : String) : Bool := builtInTypes.has name

/-! ## Parts of a document -/

namespace Definition

def type? : Definition → Option TypeDecl
  | type d => some d
  | _ => none

def typeExtension? : Definition → Option TypeDecl
  | typeExtension d => some d
  | _ => none

def directive? : Definition → Option DirectiveDecl
  | directive d => some d
  | _ => none

def schema? : Definition → Option SchemaDecl
  | schema d => some d
  | _ => none

def schemaExtension? : Definition → Option SchemaDecl
  | schemaExtension d => some d
  | _ => none

end Definition

def distinct (texts : List String) : Bool :=
  match texts with
  | [] => true
  | t :: rest => !rest.contains t && distinct rest

/-! ## Types -/

/-- A body with what an extension of its kind brings. -/
def Body.extend? : Body → Body → Option Body
  | scalar, scalar => some scalar
  | object is fs, object js gs => some (object (is ++ js) (fs ++ gs))
  | interface is fs, interface js gs => some (interface (is ++ js) (fs ++ gs))
  | union ms, union ns => some (union (ms ++ ns))
  | enum vs, enum ws => some (enum (vs ++ ws))
  | input fs, input gs => some (input (fs ++ gs))
  | _, _ => none

def TypeDecl.extend? (d extension : TypeDecl) : Option TypeDecl := do
  let body ← d.body.extend? extension.body
  some { d with directives := d.directives ++ extension.directives, body := body }

def Body.isDistinct : Body → Bool
  | scalar => true
  | object is fs => distinct is && distinct (fs.map FieldDecl.name)
  | interface is fs => distinct is && distinct (fs.map FieldDecl.name)
  | union ms => distinct ms
  | enum vs => distinct (vs.map EnumValueDecl.name)
  | input fs => distinct (fs.map InputDecl.name)

/-- A type with the extensions in front of its definition and those behind. -/
def TypeDecl.complete? (before behind : List TypeDecl) (d : TypeDecl) : Option TypeDecl := do
  let mine := fun (e : TypeDecl) => e.name = d.name
  let begun := (before.filter mine).foldl (fun d e => (d.extend? e).getD d) d
  let whole ← (behind.filter mine).foldlM TypeDecl.extend? begun
  if whole.body.isDistinct then some whole else none

/-- The types of some definitions with their extensions, the first argument being the extensions
in front of them all. -/
def completeAll? : List TypeDecl → List Definition → Option (List TypeDecl)
  | _, [] => some []
  | before, .typeExtension e :: rest => completeAll? (before ++ [e]) rest
  | before, .type d :: rest => do
    let whole ← d.complete? before (rest.filterMap Definition.typeExtension?)
    let more ← completeAll? before rest
    some (whole :: more)
  | before, _ :: rest => completeAll? before rest

/-- The types of a document behind those that are built in. -/
def assembleTypes? (definitions : List Definition) : Option (Members TypeDecl) := do
  let builtIn := builtInTypes.map Prod.snd
  let declared := builtIn ++ definitions.filterMap Definition.type?
  let extensions := definitions.filterMap Definition.typeExtension?
  let names := declared.map TypeDecl.name
  if distinct names && extensions.all (fun e => names.contains e.name) then do
    let whole ← completeAll? [] (builtIn.map Definition.type ++ definitions)
    some (whole.map (fun d => (d.name, d)))
  else none

/-! ## Directives and roots -/

/-- The directives of a document, and those built in that it does not define itself. -/
def assembleDirectives? (definitions : List Definition) : Option (Members DirectiveDecl) :=
  let own := definitions.filterMap Definition.directive?
  let names := own.map DirectiveDecl.name
  if distinct names then
    let rest := builtInDirectives.filter (fun d => !names.contains d.name)
    some ((rest ++ own).map (fun d => (d.name, d)))
  else none

def isObject (types : Members TypeDecl) (name : String) : Bool :=
  match types.get? name with
  | some ⟨_, _, _, .object _ _⟩ => true
  | _ => false

/-- The root types that need no schema definition: the object types with the default names. -/
def impliedRoots (types : Members TypeDecl) : List (Operation × String) :=
  (Operation.all.map (fun o => (o, o.defaultRoot))).filter (fun r => isObject types r.2)

/-- The schema definition of a document with its extensions, or the implied one. -/
def assembleSchema? (types : Members TypeDecl) (definitions : List Definition) :
    Option SchemaDecl := do
  let extensions := definitions.filterMap Definition.schemaExtension?
  let base ←
    match definitions.filterMap Definition.schema? with
    | [d] => some d
    | [] =>
      let implied := impliedRoots types
      if implied.isEmpty && !extensions.isEmpty then none else some ⟨[], implied⟩
    | _ => none
  let whole : SchemaDecl :=
    ⟨base.directives ++ extensions.flatMap SchemaDecl.directives,
      base.roots ++ extensions.flatMap SchemaDecl.roots⟩
  if distinct (whole.roots.map (fun r => r.1.keyword)) then some whole else none

def Catalog.assemble? (definitions : List Definition) : Option Catalog := do
  let types ← assembleTypes? definitions
  let directives ← assembleDirectives? definitions
  let schema ← assembleSchema? types definitions
  some ⟨types, directives, schema.directives, schema.roots⟩

end GraphShape.Sdl
