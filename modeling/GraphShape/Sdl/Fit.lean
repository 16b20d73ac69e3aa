import GraphShape.Double.Parse
import GraphShape.Sdl.Catalog

/-!
# Values that fit a type

A value fits a type when it can be coerced to it. Anything but null fits a scalar that is not built
in, a single value fits a list of what it fits, and an object fits an input type when it has the
required fields and no unknown ones.
-/

namespace GraphShape.Sdl

/-- The kinds of types that values are checked against. -/
def Body.isInput : Body → Bool
  | .scalar => true
  | .enum _ => true
  | .input _ => true
  | _ => false

def Body.isOutput : Body → Bool
  | .input _ => false
  | _ => true

namespace TypeDecl

def isCustomScalar (d : TypeDecl) : Bool :=
  match d.body with
  | .scalar => !TypeMap.builtInScalars.contains d.name
  | _ => false

/-- One of some scalars that are built in. -/
def isScalarAmong (d : TypeDecl) (names : List String) : Bool :=
  match d.body with
  | .scalar => names.contains d.name
  | _ => false

end TypeDecl

/-- Whether a decimal has a binary64 number near it. -/
def isFiniteNumber (text : String) : Bool :=
  match Extended.ofDecimal? text.toList with
  | some (.finite _) => true
  | _ => false

/-- Whether a whole number has at most 32 bits. -/
def isSmallInt (text : String) : Bool := (Text.signed? 10 (Nat.pow 2 31) text.toList).isSome

def TypeDecl.fitsInt (d : TypeDecl) (text : String) : Bool :=
  d.isCustomScalar || d.isScalarAmong ["ID"] || (d.isScalarAmong ["Int"] && isSmallInt text) ||
    (d.isScalarAmong ["Float"] && isFiniteNumber text)

def TypeDecl.fitsFloat (d : TypeDecl) (text : String) : Bool :=
  d.isCustomScalar || (d.isScalarAmong ["Float"] && isFiniteNumber text)

def TypeDecl.fitsText (d : TypeDecl) : Bool :=
  d.isCustomScalar || d.isScalarAmong ["String", "ID"]

def TypeDecl.fitsBool (d : TypeDecl) : Bool := d.isCustomScalar || d.isScalarAmong ["Boolean"]

def TypeDecl.fitsEnum (d : TypeDecl) (name : String) : Bool :=
  match d.body with
  | .enum values => (values.map EnumValueDecl.name).contains name
  | _ => false

/-- An argument or field that has to be given. -/
def InputDecl.isRequired (i : InputDecl) : Bool := i.type.nonNull && i.default.isNone

def Value.isNull : Value → Bool
  | .null => true
  | _ => false

/-- Whether every required one of some inputs is given and nowhere null. -/
def givesRequired (inputs : List InputDecl) (given : List (String × Value)) : Bool :=
  (inputs.filter InputDecl.isRequired).all (fun i =>
    let values := given.filter (fun g => g.1 = i.name)
    !values.isEmpty && values.all (fun g => !g.2.isNull))

mutual

def fits (types : Members TypeDecl) (type : TypeRef) : Value → Bool
  | .null => !type.nonNull
  | .int text => fitsDecl types type (fun d => d.fitsInt text)
  | .float text => fitsDecl types type (fun d => d.fitsFloat text)
  | .text _ => fitsDecl types type TypeDecl.fitsText
  | .bool _ => fitsDecl types type TypeDecl.fitsBool
  | .enum name => fitsDecl types type (fun d => d.fitsEnum name)
  | .list items =>
    fitsDecl types type (fun d => d.body.isInput && (type.isList || d.isCustomScalar)) &&
      fitItems types type.itemType items
  | .object fields =>
    match types.get? type.innerName with
    | none => true
    | some d =>
      match d.body with
      | .input inputs => givesRequired inputs fields && fitFields types inputs [] fields
      | _ => d.isCustomScalar

def fitItems (types : Members TypeDecl) (type : TypeRef) : List Value → Bool
  | [] => true
  | v :: rest => fits types type v && fitItems types type rest

/-- Whether each of some fields is known and fits its type. Of fields with one name only the first
has to fit. The names already met come before the fields. -/
def fitFields (types : Members TypeDecl) (inputs : List InputDecl) :
    List String → List (String × Value) → Bool
  | _, [] => true
  | met, (name, v) :: rest =>
    (match inputs.find? (fun i => i.name = name) with
      | some i => met.contains name || fits types i.type v
      | none => false) && fitFields types inputs (name :: met) rest

/-- Asks the declaration of the type inside all lists. An unknown type refuses nothing. -/
def fitsDecl (types : Members TypeDecl) (type : TypeRef) (ask : TypeDecl → Bool) : Bool :=
  match types.get? type.innerName with
  | some d => ask d
  | none => true

end

end GraphShape.Sdl
