import GraphShape.Double.Parse
import GraphShape.Members
import GraphShape.Text.Quoted

/-!
# Trees of settings

What the environment and a file say is a tree each: values, arrays and tables under names. Two
trees are joined name by name, and where they disagree the first one wins.
-/

namespace GraphShape

inductive SettingTree where
  | nothing
  | bool (b : Bool)
  | unsigned (n : Nat)
  | signed (n : Int)
  /-- A whole number beyond 64 bits. -/
  | wide (n : Int)
  | real (r : Extended)
  | char (ch : Char)
  | string (s : String)
  | array (items : List SettingTree)
  | table (entries : List (String × SettingTree))
  deriving Repr

namespace SettingTree

instance : Inhabited SettingTree := ⟨nothing⟩

/-- What a complaint says was found. -/
def found : SettingTree → String
  | nothing => "unit"
  | bool b => "bool " ++ (if b then "true" else "false")
  | unsigned n => "unsigned int `" ++ toString n ++ "`"
  | signed n => "signed int `" ++ toString n ++ "`"
  | wide n => "integer `" ++ toString n ++ "` as " ++ (if n < 0 then "i128" else "u128")
  | real r => "float `" ++ r.text ++ "`"
  | char ch => "string " ++ Text.quoted (String.singleton ch)
  | string s => "string " ++ Text.quoted s
  | array _ => "sequence"
  | table _ => "map"

/-- A value under one name after the other. -/
def nest : List String → SettingTree → SettingTree
  | [], value => value
  | name :: names, value => table [(name, nest names value)]

mutual

/-- Two tables are joined name by name. Otherwise the first tree wins. -/
def join : SettingTree → SettingTree → SettingTree
  | table xs, table ys =>
    table (joinEntries xs ys ++ ys.filter (fun y => !Members.has xs y.1))
  | a, _ => a

/-- Each entry joined with the other table's value under its name. -/
def joinEntries : List (String × SettingTree) → List (String × SettingTree) →
    List (String × SettingTree)
  | [], _ => []
  | (name, x) :: xs, ys => (name, joinValue x (Members.get? ys name)) :: joinEntries xs ys

/-- A value joined with another one, if there is one. -/
def joinValue : SettingTree → Option SettingTree → SettingTree
  | x, none => x
  | x, some y => join x y

end

def at? : SettingTree → List String → Option SettingTree
  | tree, [] => some tree
  | table entries, name :: names => (Members.get? entries name).bind (fun t => t.at? names)
  | array items, name :: names =>
    match Text.natural? 10 name.toList with
    | some i => items[i]?.bind (fun t => t.at? names)
    | none => none
  | _, _ :: _ => none

end SettingTree

end GraphShape
