import GraphShape.Members
import GraphShape.Double.Rounding

/-!
# JSON values

Objects are ordered members, so a value remembers the order of its keys. Whole numbers are exact
and everything else is a binary64 number.
-/

namespace GraphShape

inductive Json.Number where
  | whole (n : Int)
  | double (d : Double)
  deriving DecidableEq, Repr

inductive Json where
  | null
  | bool (b : Bool)
  | number (n : Json.Number)
  | string (s : String)
  | array (items : List Json)
  | object (members : List (String × Json))
  deriving Repr

namespace Json

instance : Inhabited Json := ⟨null⟩

def strings (texts : List String) : Json := array (texts.map string)

def members? : Json → Option (Members Json)
  | object ms => some ms
  | _ => none

def items? : Json → Option (List Json)
  | array xs => some xs
  | _ => none

def string? : Json → Option String
  | string s => some s
  | _ => none

def get? (j : Json) (key : String) : Option Json := j.members?.bind (Members.get? · key)

end Json

end GraphShape
