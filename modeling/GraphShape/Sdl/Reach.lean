import GraphShape.Sdl.Catalog

/-!
# Definitions that contain themselves

No input type may require a value of itself, and no directive may be used inside its own
definition. Both are paths in a graph of definitions that come back to where they start. A path may
also get too long, and then it is refused like one that comes back.
-/

namespace GraphShape.Sdl

inductive Node where
  | type (name : String)
  | directive (name : String)
  deriving DecidableEq, Repr

namespace Node

def isDirective : Node → Bool
  | directive _ => true
  | type _ => false

/-- Types that are built in make no path longer. -/
def isOwnType : Node → Bool
  | type name => !isBuiltIn name
  | directive _ => false

end Node

/-- How many types, and how many directives, a path may visit. -/
def pathLimit : Nat := 32

/-- Whether a path visits too many types or too many directives. -/
def isTooLong (path : List Node) : Bool :=
  pathLimit < path.countP Node.isOwnType || pathLimit < path.countP Node.isDirective

/-- Whether every path that goes on from a node ends in time, without coming back to where it
started. A path visits no node twice. The first argument bounds its steps. -/
def pathsEnd (next : Node → List Node) (start : Node) : Nat → List Node → Node → Bool
  | 0, _, _ => false
  | n + 1, path, node =>
    (next node).all (fun m =>
      if m = start then false
      else path.contains m || (!isTooLong (m :: path) && pathsEnd next start n (m :: path) m))

/-- Whether every path from a node ends in time. Between nodes that make a path longer there is at
most one that does not. -/
def isFinite (next : Node → List Node) (start : Node) : Bool :=
  pathsEnd next start (4 * pathLimit + 2) [start] start

/-! ## Input types -/

def isInputType (types : Members TypeDecl) (name : String) : Bool :=
  match types.get? name with
  | some ⟨_, _, _, .input _⟩ => true
  | _ => false

/-- The input types that a value of an input type has to hold. -/
def requiredInputs (types : Members TypeDecl) : Node → List Node
  | .type name =>
    match types.get? name with
    | some ⟨_, _, _, .input fields⟩ =>
      ((fields.filterMap (fun f => f.type.requiredName?)).filter (isInputType types)).map .type
    | _ => []
  | .directive _ => []

/-! ## Directives -/

def usedNodes (uses : List DirectiveUse) : List Node := uses.map (fun u => .directive u.name)

def inputNodes (inputs : List InputDecl) : List Node :=
  inputs.flatMap (fun i => usedNodes i.directives ++ [.type i.type.innerName])

/-- What a type refers to on the input side. -/
def typeNodes (d : TypeDecl) : List Node :=
  usedNodes d.directives ++
    (match d.body with
      | .enum values => values.flatMap (fun v => usedNodes v.directives)
      | .input fields => inputNodes fields
      | _ => [])

/-- What the definition of a directive or type refers to. -/
def nodesOf (c : Catalog) : Node → List Node
  | .type name => ((c.types.get? name).map typeNodes).getD []
  | .directive name => ((c.directives.get? name).map (fun d => inputNodes d.arguments)).getD []

/-! ## Both rules -/

/-- No input type requires itself. -/
def inputsAreFinite (c : Catalog) : Bool :=
  c.types.all (fun d => isFinite (requiredInputs c.types) (.type d.1))

/-- No directive is used inside its own definition. -/
def directivesAreFinite (c : Catalog) : Bool :=
  c.directives.all (fun d => isFinite (nodesOf c) (.directive d.1))

end GraphShape.Sdl
