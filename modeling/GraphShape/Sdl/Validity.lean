import GraphShape.Sdl.Fit
import GraphShape.Sdl.Reach

/-!
# Valid catalogs

A catalog is valid when every name it uses is defined and of the right kind, every type has
something in it, every promise to an interface is kept and every directive stands where it may with
the arguments it needs. Each rule is a test of its own, and a catalog is valid when all hold.
-/

namespace GraphShape.Sdl

/-! ## Names -/

/-- Names with two underscores in front belong to introspection. -/
def isReserved (name : String) : Bool := TypeMap.isIntrospective name

/-! ## Directives in use -/

/-- A directive stands where it may, with known arguments that fit and all required ones. -/
def useIsValid (c : Catalog) (place : Location) (u : DirectiveUse) : Bool :=
  match c.directives.get? u.name with
  | none => false
  | some d =>
    d.locations.contains place && distinct (u.arguments.map Prod.fst) &&
      givesRequired d.arguments u.arguments && fitFields c.types d.arguments [] u.arguments

/-- A directive that is used again may be repeated. -/
def repeatsAreValid (c : Catalog) : List DirectiveUse → Bool
  | [] => true
  | u :: rest =>
    (!(rest.map DirectiveUse.name).contains u.name ||
      ((c.directives.get? u.name).map DirectiveDecl.repeatable).getD true) &&
      repeatsAreValid c rest

def usesAreValid (c : Catalog) (place : Location) (uses : List DirectiveUse) : Bool :=
  uses.all (useIsValid c place) && repeatsAreValid c uses

/-! ## Inputs -/

/-- An input has a name of its own and the type of a value. -/
def inputIsValid (c : Catalog) (place : Location) (i : InputDecl) : Bool :=
  !isReserved i.name && usesAreValid c place i.directives &&
    (match c.types.get? i.type.innerName with
      | some d => d.body.isInput
      | none => false)

def argumentsAreValid (c : Catalog) (inputs : List InputDecl) : Bool :=
  inputs.all (inputIsValid c .argumentDefinition) && distinct (inputs.map InputDecl.name)

/-! ## Fields -/

def fieldIsValid (c : Catalog) (f : FieldDecl) : Bool :=
  !isReserved f.name && usesAreValid c .fieldDefinition f.directives &&
    argumentsAreValid c f.arguments &&
    (match c.types.get? f.type.innerName with
      | some d => d.body.isOutput
      | none => false)

def fieldsAreValid (c : Catalog) (fields : List FieldDecl) : Bool :=
  !fields.isEmpty && fields.all (fieldIsValid c)

/-! ## Interfaces -/

def Body.interfaces : Body → List String
  | .object is _ => is
  | .interface is _ => is
  | _ => []

/-- Whether every value of a type is one of another type. -/
def isSubtype (c : Catalog) (own wider : String) : Bool :=
  own = wider ||
    (match c.types.get? wider with
      | some ⟨_, _, _, .union members⟩ => members.contains own
      | some ⟨_, _, _, .interface _ _⟩ =>
        ((c.types.get? own).map (fun d => d.body.interfaces.contains wider)).getD false
      | _ => false)

/-- Whether a field of one type may stand for a field of another. -/
def narrows (c : Catalog) : TypeRef → TypeRef → Bool
  | .named own a, .named wider b => (a || !b) && isSubtype c own wider
  | .list own a, .list wider b => (a || !b) && narrows c own wider
  | _, _ => false

/-- Whether a field keeps what an interface's field promises: a type at least as narrow, each
argument with its type, and no further required ones. -/
def keepsField (c : Catalog) (promised own : FieldDecl) : Bool :=
  narrows c own.type promised.type &&
    promised.arguments.all (fun a =>
      own.arguments.any (fun b => b.name = a.name && b.type = a.type)) &&
    own.arguments.all (fun b =>
      !b.isRequired || promised.arguments.any (fun a => a.name = b.name))

/-- Whether a type with interfaces and fields keeps what one of the interfaces promises. -/
def keepsInterface (c : Catalog) (name : String) (interfaces : List String)
    (fields : List FieldDecl) (promised : String) : Bool :=
  match c.types.get? promised with
  | some ⟨_, _, _, .interface wider theirs⟩ =>
    promised ≠ name && wider.all (fun w => interfaces.contains w) &&
      theirs.all (fun f => fields.any (fun g => g.name = f.name && keepsField c f g))
  | _ => false

/-! ## Types -/

def isObjectType (c : Catalog) (name : String) : Bool := isObject c.types name

def Body.location : Body → Location
  | .scalar => .scalar
  | .object _ _ => .object
  | .interface _ _ => .interface
  | .union _ => .union
  | .enum _ => .enum
  | .input _ => .inputObject

/-- A type has something in it, and all of that is valid. -/
def bodyIsValid (c : Catalog) (name : String) : Body → Bool
  | .scalar => true
  | .object interfaces fields =>
    fieldsAreValid c fields && interfaces.all (keepsInterface c name interfaces fields)
  | .interface interfaces fields =>
    fieldsAreValid c fields && interfaces.all (keepsInterface c name interfaces fields)
  | .union members => !members.isEmpty && members.all (isObjectType c)
  | .enum values =>
    !values.isEmpty &&
      values.all (fun v => !isReserved v.name && usesAreValid c .enumValue v.directives)
  | .input fields => !fields.isEmpty && fields.all (inputIsValid c .inputFieldDefinition)

/-- The directives of scalars that are built in may be any. -/
def typeUsesAreValid (c : Catalog) (d : TypeDecl) : Bool :=
  TypeMap.builtInScalars.contains d.name || usesAreValid c d.body.location d.directives

def typeIsValid (c : Catalog) (d : TypeDecl) : Bool :=
  (isBuiltIn d.name || !isReserved d.name) && typeUsesAreValid c d && bodyIsValid c d.name d.body

/-! ## The catalog -/

def directiveIsValid (c : Catalog) (d : DirectiveDecl) : Bool :=
  !isReserved d.name && argumentsAreValid c d.arguments

/-- There is a root for queries, and each root is an object type of its own. -/
def rootsAreValid (c : Catalog) : Bool :=
  c.roots.any (fun r => r.1 = .query) && c.roots.all (fun r => isObjectType c r.2) &&
    distinct (c.roots.map Prod.snd)

def Catalog.isValid (c : Catalog) : Bool :=
  rootsAreValid c && usesAreValid c .schema c.schemaDirectives &&
    c.directives.all (fun d => directiveIsValid c d.2) &&
    c.types.all (fun d => typeIsValid c d.2) &&
    inputsAreFinite c && directivesAreFinite c

end GraphShape.Sdl
