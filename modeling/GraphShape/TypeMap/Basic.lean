import GraphShape.Members

/-!
# Type maps

The types of a GraphQL schema by name, in order. Only what a conversion looks at is kept: the
fields of objects, the members of unions and the values of enums.
-/

namespace GraphShape

/-- A reference to a type, with lists around it and a mark at each level that null is excluded. -/
inductive TypeRef where
  | named (name : String) (nonNull : Bool)
  | list (item : TypeRef) (nonNull : Bool)
  deriving DecidableEq, Repr

namespace TypeRef

def nonNull : TypeRef → Bool
  | named _ b => b
  | list _ b => b

/-- The type inside all lists. -/
def innerName : TypeRef → String
  | named name _ => name
  | list item _ => item.innerName

def nesting : TypeRef → Nat
  | named _ _ => 0
  | list item _ => item.nesting + 1

/-- The type of the items when a value is a list. -/
def itemType : TypeRef → TypeRef
  | named name b => named name b
  | list item _ => item

def isList : TypeRef → Bool
  | named _ _ => false
  | list _ _ => true

/-- The name of a type of which there has to be one value. -/
def requiredName? : TypeRef → Option String
  | named name true => some name
  | _ => none

/-- Reads a reference from its notation. One final mark excludes null, brackets around the rest
make a list, and anything else is a name. -/
def ofChars : Nat → List Char → TypeRef
  | 0, text => named (String.ofList text) false
  | n + 1, text =>
    let marked := text.getLast? = some '!'
    let body := if marked then text.dropLast else text
    if body.head? = some '[' ∧ body.getLast? = some ']' ∧ 2 ≤ body.length then
      list (ofChars n (body.drop 1).dropLast) marked
    else named (String.ofList body) marked

/-- The reference that a notation stands for. -/
def ofText (text : String) : TypeRef := ofChars (text.length + 1) text.toList

end TypeRef

structure Field where
  name : String
  type : TypeRef
  description : Option String
  deriving DecidableEq, Repr

structure ObjectType where
  name : String
  description : Option String
  /-- In the order of their declaration, no two of one name. -/
  fields : List Field
  deriving DecidableEq, Repr

inductive TypeDef where
  | object (object : ObjectType)
  | interface (name : String)
  | union (name : String) (members : List String)
  | enum (name : String) (values : List String)
  | scalar (name : String)
  | input (name : String)
  deriving DecidableEq, Repr

namespace TypeDef

def name : TypeDef → String
  | object o => o.name
  | interface n => n
  | union n _ => n
  | enum n _ => n
  | scalar n => n
  | input n => n

def object? : TypeDef → Option ObjectType
  | object o => some o
  | _ => none

end TypeDef

namespace ObjectType

/-- An object type from fields in order. A repeated field takes the place of the earlier one. -/
def ofFields (name : String) (description : Option String) (fields : List Field) : ObjectType :=
  ⟨name, description, (Members.ofList (fields.map (fun f => (f.name, f)))).map Prod.snd⟩

def hasField (o : ObjectType) (name : String) : Bool := o.fields.any (fun f => f.name = name)

end ObjectType

/-- Types by name, in order. -/
abbrev TypeMap := Members TypeDef

namespace TypeMap

/-- A definition takes the place of an earlier one of its name. -/
def add (types : TypeMap) (d : TypeDef) : TypeMap := types.put d.name d

def ofDefs (defs : List TypeDef) : TypeMap := defs.foldl add []

def objects (types : TypeMap) : List ObjectType := types.filterMap (fun m => m.2.object?)

/-- Names of introspection start so. -/
def isIntrospective (name : String) : Bool := name.startsWith "__"

/-- The names of the object types that are not part of introspection. -/
def objectNames (types : TypeMap) : List String :=
  types.filterMap (fun m =>
    match m.2 with
    | .object _ => if isIntrospective m.1 then none else some m.1
    | _ => none)

end TypeMap

def dropRepeats (texts : List String) : List String :=
  texts.foldl (fun seen t => if seen.contains t then seen else seen ++ [t]) []

/-- One more text, unless it is there. -/
def addNew (seen : List String) (t : String) : List String :=
  if seen.contains t then seen else seen ++ [t]

theorem dropRepeats_append (texts more : List String) :
    dropRepeats (texts ++ more) = more.foldl addNew (dropRepeats texts) :=
  List.foldl_append

theorem mem_addNew (seen : List String) (t x : String) : x ∈ addNew seen t ↔ x ∈ seen ∨ x = t := by
  unfold addNew
  split
  · rename_i h
    rw [List.contains_iff_mem] at h
    constructor
    · exact Or.inl
    · rintro (hx | rfl)
      · exact hx
      · exact h
  · simp

theorem mem_foldl_addNew (texts seen : List String) (x : String) :
    x ∈ texts.foldl addNew seen ↔ x ∈ seen ∨ x ∈ texts := by
  induction texts generalizing seen with
  | nil => simp
  | cons t rest ih => rw [List.foldl_cons, ih, mem_addNew, List.mem_cons, or_assoc]

theorem mem_dropRepeats (texts : List String) (x : String) : x ∈ dropRepeats texts ↔ x ∈ texts :=
  (mem_foldl_addNew texts [] x).trans (by simp)

theorem nodup_addNew {seen : List String} (t : String) (h : seen.Nodup) : (addNew seen t).Nodup := by
  unfold addNew
  split
  · exact h
  · rename_i ht
    rw [List.contains_iff_mem] at ht
    rw [List.nodup_append]
    refine ⟨h, by simp, ?_⟩
    intro x hx y hy hxy
    rw [List.mem_singleton] at hy
    exact ht (hy ▸ hxy ▸ hx)

theorem nodup_foldl_addNew (texts : List String) {seen : List String} (h : seen.Nodup) :
    (texts.foldl addNew seen).Nodup := by
  induction texts generalizing seen with
  | nil => exact h
  | cons t rest ih => exact ih (nodup_addNew t h)

theorem dropRepeats_cons (t : String) (texts : List String) :
    ∃ rest, dropRepeats (t :: texts) = t :: rest := by
  suffices h : ∀ seen : List String, ∃ more, texts.foldl addNew seen = seen ++ more from h [t]
  induction texts with
  | nil => exact fun seen => ⟨[], (List.append_nil seen).symm⟩
  | cons x rest ih =>
    intro seen
    rw [List.foldl_cons, addNew]
    split
    · exact ih seen
    · obtain ⟨more, h⟩ := ih (seen ++ [x])
      exact ⟨x :: more, by rw [h, List.append_assoc, List.singleton_append]⟩

theorem nodup_dropRepeats (texts : List String) : (dropRepeats texts).Nodup :=
  nodup_foldl_addNew texts List.nodup_nil

end GraphShape
