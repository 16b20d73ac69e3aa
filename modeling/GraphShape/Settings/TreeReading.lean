import GraphShape.Json.Message
import GraphShape.Settings.Environment
import GraphShape.Settings.Setting

/-!
# Reading a configuration from a tree

Each entry of the tree assigns a value to the setting of its name, and what names no setting is
passed over. A table is read in the order of its names, so the first problem is the one with the
smallest name. A group may also be an array, which assigns its settings in their own order.
-/

namespace GraphShape

inductive SettingTree.Fault where
  | wrongKind (found expected : String)
  | unknownRotation (found : String)
  | other (text : String)
  deriving DecidableEq, Repr

/-- A fault and the path of names that leads to it. -/
structure SettingTree.Problem where
  fault : SettingTree.Fault
  path : List String
  deriving DecidableEq, Repr

namespace SettingTree

def Fault.text : Fault → String
  | wrongKind found expected => "invalid type: found " ++ found ++ ", expected " ++ expected
  | unknownRotation found =>
    "unknown variant: found `" ++ found ++ "`, expected `one of " ++
      Json.nameList (Rotation.all.map Rotation.name) ++ "`"
  | other text => text

/-- A problem seen from outside the table or array that it is in. -/
def Problem.under (name : String) (p : Problem) : Problem := { p with path := name :: p.path }

variable {α : Type}

def fail (fault : Fault) : Except Problem α := .error ⟨fault, []⟩

/-- The complaint that another kind of value was expected. -/
def refuse (tree : SettingTree) (expected : String) : Except Problem α :=
  fail (.wrongKind tree.found expected)

def inside (name : String) (result : Except Problem α) : Except Problem α :=
  result.mapError (Problem.under name)

/-! ## Values -/

def text? : SettingTree → Option String
  | string s => some s
  | char ch => some (String.singleton ch)
  | _ => none

def readText (expected : String) (tree : SettingTree) : Except Problem String :=
  match tree.text? with
  | some s => .ok s
  | none => refuse tree expected

/-- Nothing stands for no text. -/
def readOptional (expected : String) (tree : SettingTree) : Except Problem (Option String) :=
  match tree with
  | nothing => .ok none
  | _ => (readText expected tree).map some

def readFlag (expected : String) (tree : SettingTree) : Except Problem Bool :=
  match tree with
  | bool b => .ok b
  | _ => refuse tree expected

def readLevel (expected : String) (tree : SettingTree) : Except Problem Log.Level := do
  let name ← readText expected tree
  match Log.Level.ofText? name with
  | some level => .ok level
  | none => fail (.other Log.Level.refusal)

def rotationOfName (name : String) : Except Problem Rotation :=
  match Rotation.ofName? name with
  | some r => .ok r
  | none => fail (.unknownRotation name)

def inOrder (entries : List (String × SettingTree)) : List (String × SettingTree) :=
  entries.mergeSort (fun a b => a.1 ≤ b.1)

/-- A rotation is named by text or by the first name of a table, with nothing under it. -/
def readRotation (expected : String) (tree : SettingTree) : Except Problem Rotation :=
  match tree with
  | string name => rotationOfName name
  | table entries =>
    match inOrder entries with
    | [] => fail (.wrongKind tree.found "enum")
    | (name, value) :: _ => do
      let r ← rotationOfName name
      match value with
      | nothing => .ok r
      | _ => inside name (refuse value "unit")
  | _ => refuse tree expected

end SettingTree

def Kind.ofTree (k : Kind) (tree : SettingTree) : Except SettingTree.Problem k.Value :=
  match k with
  | flag => SettingTree.readFlag flag.expected tree
  | text => SettingTree.readText text.expected tree
  | optionalText => SettingTree.readOptional optionalText.expected tree
  | optionalPath => SettingTree.readOptional optionalPath.expected tree
  | level => SettingTree.readLevel level.expected tree
  | rotation => SettingTree.readRotation rotation.expected tree

/-! ## Entries and groups -/

def Setting.ofTree (s : Setting) (tree : SettingTree) (c : Config) :
    Except SettingTree.Problem Config :=
  (s.kind.ofTree tree).map (fun v => s.assign v c)

namespace SettingTree

/-- Reads one entry after the other with the reader of its name. -/
def assignNamed (readers : List (String × (SettingTree → Config → Except Problem Config))) :
    List (String × SettingTree) → Config → Except Problem Config
  | [], c => .ok c
  | (name, value) :: rest, c =>
    match Members.get? readers name with
    | some read => do
      let c ← inside name (read value c)
      assignNamed readers rest c
    | none => assignNamed readers rest c

/-- Reads one item after the other with the next reader. Items without a reader are passed over,
and settings without an item are left alone. -/
def assignInTurn : Nat → List (SettingTree → Config → Except Problem Config) →
    List SettingTree → Config → Except Problem Config
  | i, read :: readers, item :: items, c => do
    let c ← inside (toString i) (read item c)
    assignInTurn (i + 1) readers items c
  | _, _, _, c => .ok c

/-- Reads a table or an array with a reader for each name. -/
def assign (expected : String)
    (readers : List (String × (SettingTree → Config → Except Problem Config)))
    (tree : SettingTree) (c : Config) : Except Problem Config :=
  match tree with
  | table entries => assignNamed readers (inOrder entries) c
  | array items => assignInTurn 0 (readers.map Prod.snd) items c
  | _ => refuse tree expected

end SettingTree

def SettingGroup.ofTree (g : SettingGroup) (tree : SettingTree) (c : Config) :
    Except SettingTree.Problem Config :=
  tree.assign g.expected (g.settings.map (fun s => (s.name, s.ofTree))) c

def Entry.ofTree (e : Entry) (tree : SettingTree) (c : Config) :
    Except SettingTree.Problem Config :=
  match e with
  | .setting s => s.ofTree tree c
  | .group _ _ g => g.ofTree tree c

/-- The configuration that a tree gives. What it does not set has its default. -/
def Config.ofTree (tree : SettingTree) : Except SettingTree.Problem Config :=
  tree.assign Config.expected (Config.entries.map (fun e => (e.name, e.ofTree))) Config.standard

end GraphShape
