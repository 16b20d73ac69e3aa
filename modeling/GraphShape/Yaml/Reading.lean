import GraphShape.Settings.Tree
import GraphShape.Yaml.Node

/-!
# Trees of settings from YAML

A plain scalar without a tag is what it looks like: nothing, a truth value, a number or text. A node
with a tag of the application is a table with the tag as its only name. A settings file is a
mapping, and no document at all is an empty one.
-/

namespace GraphShape.Yaml

/-! ## Scalars -/

def isNull (text : String) : Bool := ["null", "Null", "NULL", "~"].contains text

def bool? (text : String) : Option Bool :=
  if ["true", "True", "TRUE"].contains text then some true
  else if ["false", "False", "FALSE"].contains text then some false
  else none

/-- Digits with zeros in front are text. -/
def isPadded (text : List Char) : Bool :=
  let digits := match text with
    | '-' :: rest => rest
    | '+' :: rest => rest
    | _ => text
  match digits with
  | '0' :: rest => !rest.isEmpty && rest.all Text.isDecimalDigit
  | _ => false

/-- The base that a prefix names, and the digits behind it. -/
def based? : List Char → Option (Nat × List Char)
  | '0' :: 'x' :: rest => some (16, rest)
  | '0' :: 'o' :: rest => some (8, rest)
  | '0' :: 'b' :: rest => some (2, rest)
  | _ => none

/-- A whole number behind a plus sign or none. -/
def unsignedInt? (text : List Char) : Option Nat :=
  let bare := match text with
    | '+' :: rest => rest
    | _ => text
  match based? bare with
  | some (base, digits) => Text.natural? base digits
  | none => if isPadded text then none else Text.natural? 10 bare

/-- A whole number behind a minus sign. -/
def negativeInt? (text : List Char) : Option Int :=
  match text with
  | '-' :: bare =>
    let digits := match based? bare with
      | some (base, digits) => Text.natural? base digits
      | none => if isPadded text then none else Text.natural? 10 bare
    digits.map (fun n => -(n : Int))
  | _ => none

/-- A whole number of at most 128 bits. -/
def int? (text : List Char) : Option SettingTree :=
  match unsignedInt? text, negativeInt? text with
  | some n, _ =>
    if n < Nat.pow 2 64 then some (.unsigned n)
    else if n < Nat.pow 2 128 then some (.wide n)
    else none
  | none, some n =>
    if -(Nat.pow 2 63 : Int) ≤ n then some (.signed n)
    else if -(Nat.pow 2 127 : Int) ≤ n then some (.wide n)
    else none
  | none, none => none

/-- A decimal, or one of the words for values that no decimal has. -/
def real? (text : String) : Option Extended :=
  if [".inf", ".Inf", ".INF", "+.inf", "+.Inf", "+.INF"].contains text then some (.infinite false)
  else if ["-.inf", "-.Inf", "-.INF"].contains text then some (.infinite true)
  else if [".nan", ".NaN", ".NAN"].contains text then some .undefined
  else
    match Extended.ofDecimal? text.toList with
    | some (.finite d) => some (.finite d)
    | _ => none

def plainTree (text : String) : SettingTree :=
  if text.isEmpty || isNull text then .nothing
  else
    match bool? text, int? text.toList with
    | some b, _ => .bool b
    | none, some tree => tree
    | none, none =>
      match if isPadded text.toList then none else real? text with
      | some r => .real r
      | none => .string text

/-- A tag that names a type of this language and not of the application. -/
def standardTag (name : String) : TagBytes := ("tag:yaml.org,2002:" ++ name).toUTF8.toList

/-- The name in a tag of the application, behind its mark. The mark alone names itself, and what is
no text is no name. -/
def applicationName? (tag : Option TagBytes) : Option String :=
  match tag with
  | some (first :: rest) =>
    if first = '!'.toUInt8 then
      String.fromUTF8? ⟨(if rest.isEmpty then [first] else rest).toArray⟩
    else none
  | _ => none

/-- Whether a tag belongs to the application, even when it has no name. -/
def isApplicationTag (tag : TagBytes) : Bool := tag.head? = some '!'.toUInt8

/-- The tree of a scalar. A standard tag has to suit. -/
def scalarTree? (tag : Option TagBytes) (plain : Bool) (text : String) : Option SettingTree :=
  let bare := if plain then plainTree text else .string text
  match tag with
  | none => some bare
  | some t =>
    if isApplicationTag t then some bare
    else if t = standardTag "bool" then (bool? text).map .bool
    else if t = standardTag "int" then int? text.toList
    else if t = standardTag "float" then (real? text).map .real
    else if t = standardTag "null" then if isNull text then some .nothing else none
    else some (.string text)

/-! ## Nodes -/

def nestingLimit : Nat := 128

/-- The aliases that may still be followed. -/
abbrev Following := StateT Nat Option

/-- The node itself, or the one that it is an alias of. -/
def follow (anchors : Anchors) : Node → Following Node
  | .alias number => fun left =>
    match left, anchors.node? number with
    | n + 1, some node => some (node, n)
    | _, _ => none
  | node => pure node

def key (anchors : Anchors) (node : Node) : Following String := do
  match ← follow anchors node with
  | .scalar _ _ text => pure text
  | _ => failure

/-- A tree under the name in a tag of the application, or as it is without one. -/
def underTag (tag : Option TagBytes) (tree : SettingTree) : SettingTree :=
  match applicationName? tag with
  | some name => .table [(name, tree)]
  | none => tree

/-- The entries of a mapping with a reader for the values. The last value of a key counts. -/
def tableOf (anchors : Anchors) (read : Node → Following SettingTree) (pairs : List (Node × Node)) :
    Following (Members SettingTree) :=
  pairs.foldlM (fun entries (k, v) => do
    let name ← key anchors k
    let tree ← read v
    pure (entries.put name tree)) []

/-- The tree of a node. The number bounds the nesting. -/
def treeOf (anchors : Anchors) : Nat → Node → Following SettingTree
  | 0, node => do
    match ← follow anchors node with
    | .scalar tag plain text => do
      let tree ← (scalarTree? tag plain text : Option SettingTree)
      pure (underTag tag tree)
    | _ => failure
  | n + 1, node => do
    match ← follow anchors node with
    | .scalar tag plain text => do
      let tree ← (scalarTree? tag plain text : Option SettingTree)
      pure (underTag tag tree)
    | .list tag items => do
      let trees ← items.mapM (treeOf anchors n)
      pure (underTag tag (.array trees))
    | .map tag pairs => do
      let entries ← tableOf anchors (treeOf anchors n) pairs
      pure (underTag tag (.table entries))
    | .alias _ => failure

/-- The aliases that may be followed for each event of a document. -/
def followingRate : Nat := 100

/-- The mapping that a document is. Nothing written is an empty one, whatever its tag. -/
def Document.table? (d : Document) : Option (Members SettingTree) :=
  match d.root with
  | .scalar _ true "" => some []
  | .map _ pairs =>
    let limit := followingRate * d.root.events
    (tableOf d.anchors (treeOf d.anchors (nestingLimit - 1)) pairs limit).map Prod.fst
  | _ => none

end GraphShape.Yaml

namespace GraphShape

open Yaml

def SettingTree.ofYaml? (text : String) : Option SettingTree :=
  match compose? text with
  | none => none
  | some none => some (.table [])
  | some (some d) => d.table?.map .table

end GraphShape
