import GraphShape.Log.Directive

/-!
# Log filters

A filter is a list of directives, the most specific first, and the first one that speaks about a
record decides on it.
-/

namespace GraphShape.Log

structure Filter where
  /-- The directives that records alone decide, the most specific first. -/
  statics : List Directive
  /-- The directives about spans, the most specific first. -/
  dynamics : List Directive
  deriving DecidableEq, Repr

namespace Filter

def empty : Filter := ⟨[], []⟩

def add (f : Filter) (d : Directive) : Filter :=
  if d.isStatic then { f with statics := d.insert f.statics }
  else { f with dynamics := d.insert f.dynamics }

/-- Adds a directive read from text. One about fields by name alone counts both ways. -/
def addRead (f : Filter) (d : Directive) : Filter :=
  ⟨if d.isStatic then d.insert f.statics else f.statics,
    if d.isDynamic then d.insert f.dynamics else f.dynamics⟩

/-- The directives of a list between commas that can be read, and a remark about each that
cannot. -/
def ofText (text : String) : Filter × List String :=
  let parts := (text.toList.splitOn ',').filter (fun part => !part.isEmpty)
  parts.foldl (fun (f, remarks) part =>
    let part := String.ofList part
    match Directive.parse part with
    | .ok d => (f.addRead d, remarks)
    | .error fault => (f, remarks ++ ["ignoring `" ++ part ++ "`: " ++ fault.text])) (empty, [])

def ofLevel (level : Level) (directives : String) : Filter × List String :=
  let (f, remarks) := ofText directives
  (f.add (Directive.everywhere level), remarks)

/-- Whether a record passes. No record is ever in a span. -/
def passes (f : Filter) (r : Record) : Bool :=
  match f.statics.find? (fun d => d.concerns r) with
  | some d => d.threshold.passes r.level
  | none => false

def text (f : Filter) : String := ",".intercalate ((f.statics ++ f.dynamics).map Directive.text)

end Filter

end GraphShape.Log
