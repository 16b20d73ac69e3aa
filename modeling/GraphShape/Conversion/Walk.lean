import GraphShape.Text.Quoted
import GraphShape.TypeMap.Basic

/-!
# Walks

Walking a type gives a result or a reason to stop, and on the way it mentions object types and
reports events. What was mentioned and reported before a stop is kept. A walk never sees what
earlier walks mentioned, so its result cannot depend on them.
-/

namespace GraphShape

inductive ConversionProblem where
  | unsupportedKind (name kind : String)
  | unknownType (name : String)
  | notAnObjectType (name : String)
  deriving DecidableEq, Repr

def ConversionProblem.text : ConversionProblem → String
  | unsupportedKind name kind =>
    "Unsupported " ++ kind ++ " type `" ++ name ++
      "`: only object, union, scalar, enum and list types can be converted"
  | unknownType name => "Type `" ++ name ++ "` is not defined in the schema"
  | notAnObjectType name => "Type `" ++ name ++ "` is not an object type"

/-- Why a walk stops: a problem of the types, or nesting deeper than it was allowed to follow. -/
inductive Stop where
  | problem (p : ConversionProblem)
  | tooDeep
  deriving DecidableEq, Repr

inductive Event where
  | converting (typeName : String)
  | converted (count : Nat)
  | scalarMissing (name : String)
  | scalarUnconstrained (name : String)
  deriving DecidableEq, Repr

/-- A result or a stop, with all that was mentioned and reported before. -/
structure Walk (α : Type) where
  mentions : List ObjectType
  events : List Event
  outcome : Except Stop α

namespace Walk

variable {α β : Type}

protected def pure (a : α) : Walk α := ⟨[], [], .ok a⟩

protected def bind (x : Walk α) (f : α → Walk β) : Walk β :=
  match x.outcome with
  | .error s => ⟨x.mentions, x.events, .error s⟩
  | .ok a => ⟨x.mentions ++ (f a).mentions, x.events ++ (f a).events, (f a).outcome⟩

instance : Monad Walk where
  pure := Walk.pure
  bind := Walk.bind

def stop (s : Stop) : Walk α := ⟨[], [], .error s⟩

def fail (p : ConversionProblem) : Walk α := stop (.problem p)

/-- Mentions an object type. -/
def mention (o : ObjectType) : Walk Unit := ⟨[o], [], .ok ()⟩

def report (e : Event) : Walk Unit := ⟨[], [e], .ok ()⟩

/-- One walk after the other. -/
def each (f : α → Walk β) : List α → Walk (List β)
  | [] => Walk.pure []
  | a :: rest => (f a).bind (fun b => (each f rest).bind (fun bs => Walk.pure (b :: bs)))

end Walk

end GraphShape
